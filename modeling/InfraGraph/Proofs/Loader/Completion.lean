import InfraGraph.Proofs.Loader.Polling
import Mathlib.Data.Finset.Card

/-!
Every operation that runs under a clock comes to its end. After a pass an operation waits only for a batch
that it found gathering, so each pass leaves fewer batches that gather or are waited for; the number of all
batches bounds the passes.
-/

namespace InfraGraph.Loader

variable {κ ν σ : Type}

inductive PollsAll (backend : Backend κ ν σ) (now : Nat) :
    List (Running κ ν) → Loader κ ν → σ → List (Running κ ν) → Loader κ ν → σ → Prop
  | nil (l : Loader κ ν) (s : σ) : PollsAll backend now [] l s [] l s
  | cons {r r' : Running κ ν} {rs rs' : List (Running κ ν)} {l l₁ l' : Loader κ ν} {s s₁ s' : σ}
      (polls : Polls backend now r l s r' l₁ s₁) (rest : PollsAll backend now rs l₁ s₁ rs' l' s') :
      PollsAll backend now (r :: rs) l s (r' :: rs') l' s'

theorem pollAll_pollsAll (backend : Backend κ ν σ) (now : Nat) (rs : List (Running κ ν))
    {l : Loader κ ν} (calm : Calm l) (holds : ∀ r ∈ rs, ∀ p ∈ r.tickets, Holds l p.1 p.2) (s : σ) :
    PollsAll backend now rs l s (Running.pollAll backend now l s rs).1
      (Running.pollAll backend now l s rs).2.1 (Running.pollAll backend now l s rs).2.2 := by
  induction rs generalizing l s with
  | nil => exact .nil l s
  | cons r rs ih =>
    have polls := poll_polls backend now r calm (holds r (by simp)) s
    exact .cons polls (ih (polls.calm calm)
      (fun r' hr p hp => polls.later.holds (holds r' (List.mem_cons_of_mem _ hr) p hp)) _)

/-- An operation that has finished or waits for a batch whose delay has begun. -/
structure Settled (l : Loader κ ν) (r : Running κ ν) : Prop where
  begun : ∀ k t, r.next? = some (k, t) → ∃ i, t = .batch i ∧ Begun l i
  ended : r.next? = none → ∃ outcome, r = .finished outcome

theorem Settled.later {l l' : Loader κ ν} {r : Running κ ν} (settled : Settled l r)
    (later : Later l l') : Settled l' r where
  begun k t next := by
    obtain ⟨i, hi, begun⟩ := settled.begun k t next
    exact ⟨i, hi, later.begun begun⟩
  ended := settled.ended

theorem settled_finished (l : Loader κ ν) (outcome : Outcome κ ν) : Settled l (.finished outcome) where
  begun := by simp [Running.next?]
  ended _ := ⟨outcome, rfl⟩

theorem Polls.settled {backend : Backend κ ν σ} {now : Nat} {r r' : Running κ ν} {l l' : Loader κ ν}
    {s s' : σ} (p : Polls backend now r l s r' l' s') : Settled l' r' where
  begun k t next := by
    obtain ⟨i, hi, begun, _⟩ := p.waits next
    exact ⟨i, hi, begun⟩
  ended none := by
    induction p with
    | finished outcome _ _ => exact ⟨outcome, rfl⟩
    | gathered pairs _ _ => exact ⟨_, rfl⟩
    | wait next _ => simp [next] at none
    | take _ _ _ ih => exact ih none

theorem length_setStage {n : Nat} (l : Loader κ ν) (i : Nat) (stage : Batch.Stage κ ν)
    (h : l.batches.length = n) : (l.setStage i stage).batches.length = n := by
  simpa using h

namespace PollsAll

variable {backend : Backend κ ν σ} {now : Nat} {rs rs' : List (Running κ ν)} {l l' : Loader κ ν}
  {s s' : σ}

theorem of_setStage {P : Loader κ ν → Prop} (keeps : ∀ l i stage, P l → P (l.setStage i stage))
    (p : PollsAll backend now rs l s rs' l' s') (h : P l) : P l' := by
  induction p with
  | nil _ _ => exact h
  | cons polls _ ih => exact ih (polls.of_setStage keeps h)

theorem later (p : PollsAll backend now rs l s rs' l' s') : Later l l' := by
  induction p with
  | nil l _ => exact .refl l
  | cons polls _ ih => exact polls.later.trans ih

theorem calm (p : PollsAll backend now rs l s rs' l' s') (h : Calm l) : Calm l' := by
  induction p with
  | nil _ _ => exact h
  | cons polls _ ih => exact ih (polls.calm h)

theorem length (p : PollsAll backend now rs l s rs' l' s') :
    l'.batches.length = l.batches.length :=
  p.of_setStage (P := fun l₁ => l₁.batches.length = l.batches.length) length_setStage rfl

theorem holds (p : PollsAll backend now rs l s rs' l' s')
    (h : ∀ r ∈ rs, ∀ q ∈ r.tickets, Holds l q.1 q.2) : ∀ r ∈ rs', ∀ q ∈ r.tickets, Holds l' q.1 q.2 := by
  induction p with
  | nil _ _ => exact h
  | cons polls rest ih =>
    have later := polls.later
    intro r hr q hq
    cases hr with
    | head => exact rest.later.holds (later.holds (h _ List.mem_cons_self q (polls.tickets q hq)))
    | tail _ hr =>
      exact ih (fun r hr q hq => later.holds (h r (List.mem_cons_of_mem _ hr) q hq)) r hr q hq

theorem settled (p : PollsAll backend now rs l s rs' l' s') : ∀ r ∈ rs', Settled l' r := by
  induction p with
  | nil _ _ => simp
  | cons polls rest ih =>
    intro r hr
    cases hr with
    | head => exact polls.settled.later rest.later
    | tail _ hr => exact ih r hr

theorem waits (p : PollsAll backend now rs l s rs' l' s') {r : Running κ ν} (hr : r ∈ rs') {k : κ}
    {t : Ticket ν} (next : r.next? = some (k, t)) :
    ∃ i, t = .batch i ∧ GatheringAt l i ∧ ¬ Ripe now l i := by
  induction p with
  | nil _ _ => simp at hr
  | @cons _ _ _ _ l l₁ _ _ _ _ polls rest ih =>
    have same : l₁.batches.length = l.batches.length :=
      polls.of_setStage (P := fun l₁ => l₁.batches.length = l.batches.length) length_setStage rfl
    have inside : ∀ {l₂ : Loader κ ν} {i : Nat}, l₂.batches.length = l.batches.length →
        GatheringAt l₂ i → i < l.batches.length := by
      rintro l₂ i len ⟨_, _, h⟩
      exact len ▸ (List.getElem?_eq_some_iff.mp h).1
    cases hr with
    | head =>
      obtain ⟨i, hi, _, gathering, raw⟩ := polls.waits next
      exact ⟨i, hi, polls.later.gatheringAt (inside same gathering) gathering, raw⟩
    | tail _ hr =>
      obtain ⟨i, hi, gathering, raw⟩ := ih hr
      exact ⟨i, hi, polls.later.gatheringAt (inside same gathering) gathering,
        fun ripe => raw (polls.later.ripe ripe)⟩

theorem answered (p : PollsAll backend now rs l s rs' l' s') {r : Running κ ν} (hr : r ∈ rs) {k : κ}
    {i : Nat} (next : r.next? = some (k, .batch i)) (ripe : Ripe now l i) : AnsweredAt l' i := by
  induction p with
  | nil _ _ => simp at hr
  | cons polls rest ih =>
    cases hr with
    | head => exact rest.later.answeredAt (polls.answered next ripe)
    | tail _ hr => exact ih hr (polls.later.ripe ripe)

end PollsAll

structure Waiting (l : Loader κ ν) (rs : List (Running κ ν)) : Prop where
  calm : Calm l
  holds : ∀ r ∈ rs, ∀ p ∈ r.tickets, Holds l p.1 p.2
  settled : ∀ r ∈ rs, Settled l r

theorem PollsAll.waiting {backend : Backend κ ν σ} {now : Nat} {rs rs' : List (Running κ ν)}
    {l l' : Loader κ ν} {s s' : σ} (p : PollsAll backend now rs l s rs' l' s') (w : Waiting l rs) :
    Waiting l' rs' where
  calm := p.calm w.calm
  holds := p.holds w.holds
  settled := p.settled

theorem waitsFor_eq (r : Running κ ν) : r.waitsFor = r.next?.map Prod.snd := by
  cases r <;> rfl

theorem due?_of_begun {l : Loader κ ν} {i : Nat} (h : Begun l i) :
    ∃ due, l.due? (.batch i) = some due ∧ ∀ now, Ripe (max now due) l i := by
  obtain ⟨_, ⟨keys, stage⟩, hb, past⟩ := h
  cases past with
  | @due due _ =>
    exact ⟨due, by simp [due?, hb], fun now => ⟨_, hb, .due (Nat.le_max_right now due)⟩⟩
  | answered answer => exact ⟨0, by simp [due?, hb], fun now => ⟨_, hb, .answered answer⟩⟩

theorem Waiting.of_nextDue_none {l : Loader κ ν} {rs : List (Running κ ν)} (w : Waiting l rs)
    (h : l.nextDue rs = none) : ∀ r ∈ rs, ∃ outcome, r = .finished outcome := by
  intro r hr
  cases next : r.next? with
  | none => exact (w.settled r hr).ended next
  | some p =>
    obtain ⟨k, t⟩ := p
    obtain ⟨i, rfl, begun⟩ := (w.settled r hr).begun k t next
    obtain ⟨due, hd, _⟩ := due?_of_begun begun
    have empty := List.min?_eq_none_iff.mp h
    have mem : due ∈ rs.filterMap fun r => r.waitsFor.bind l.due? :=
      List.mem_filterMap.mpr ⟨r, hr, by simp [waitsFor_eq, next, hd]⟩
    rw [empty] at mem
    simp at mem

theorem Waiting.of_nextDue_some {l : Loader κ ν} {rs : List (Running κ ν)} (w : Waiting l rs)
    {due : Nat} (h : l.nextDue rs = some due) (now : Nat) :
    ∃ r ∈ rs, ∃ k i, r.next? = some (k, .batch i) ∧ Ripe (max now due) l i := by
  obtain ⟨r, hr, hd⟩ := List.mem_filterMap.mp (List.min?_mem h)
  obtain ⟨t, ht, hd⟩ := Option.bind_eq_some_iff.mp hd
  rw [waitsFor_eq] at ht
  obtain ⟨⟨k, t⟩, next, rfl⟩ := Option.map_eq_some_iff.mp ht
  obtain ⟨i, rfl, begun⟩ := (w.settled r hr).begun k t next
  obtain ⟨due', hd', ripe⟩ := due?_of_begun begun
  obtain rfl : due' = due := by simpa [hd'] using hd
  exact ⟨r, hr, k, i, next, ripe now⟩

open Classical in
noncomputable def busy (l : Loader κ ν) (rs : List (Running κ ν)) : Finset Nat :=
  (Finset.range l.batches.length).filter fun i =>
    GatheringAt l i ∨ ∃ r ∈ rs, ∃ k, r.next? = some (k, .batch i)

theorem mem_busy {l : Loader κ ν} {rs : List (Running κ ν)} {i : Nat} :
    i ∈ busy l rs ↔ i < l.batches.length ∧
      (GatheringAt l i ∨ ∃ r ∈ rs, ∃ k, r.next? = some (k, .batch i)) := by
  simp [busy]

theorem card_busy_le (l : Loader κ ν) (rs : List (Running κ ν)) :
    (busy l rs).card ≤ l.batches.length := by
  classical
  exact (Finset.card_filter_le _ _).trans (Finset.card_range _).le

theorem Begun.lt_length {l : Loader κ ν} {i : Nat} (h : Begun l i) : i < l.batches.length := by
  obtain ⟨_, b, hb, _⟩ := h
  exact (List.getElem?_eq_some_iff.mp hb).1

/-- A pass at a time at which something is to be had leaves fewer busy batches. -/
theorem PollsAll.card_busy_lt {backend : Backend κ ν σ} {now : Nat} {rs rs' : List (Running κ ν)}
    {l l' : Loader κ ν} {s s' : σ} (p : PollsAll backend now rs l s rs' l' s') (w : Waiting l rs)
    {r : Running κ ν} (hr : r ∈ rs) {k : κ} {i : Nat} (next : r.next? = some (k, .batch i))
    (ripe : Ripe now l i) : (busy l' rs').card < (busy l rs).card := by
  refine Finset.card_lt_card (Finset.ssubset_iff_of_subset ?_ |>.mpr ⟨i, ?_, ?_⟩)
  · intro j hj
    obtain ⟨inside, gathering | ⟨r', hr', k', next'⟩⟩ := mem_busy.mp hj
    · rw [p.length] at inside
      exact mem_busy.mpr ⟨inside, .inl (p.later.gatheringAt inside gathering)⟩
    · obtain ⟨i', same, gathering, _⟩ := p.waits hr' next'
      obtain rfl := Ticket.batch.inj same
      rw [p.length] at inside
      exact mem_busy.mpr ⟨inside, .inl gathering⟩
  · obtain ⟨i', same, begun⟩ := (w.settled r hr).begun k _ next
    obtain rfl := Ticket.batch.inj same
    exact mem_busy.mpr ⟨begun.lt_length, .inr ⟨r, hr, k, next⟩⟩
  · intro hi
    obtain ⟨_, ⟨keys, due, gathering⟩ | ⟨r', hr', k', next'⟩⟩ := mem_busy.mp hi
    · obtain ⟨_, _, answered⟩ := p.answered hr next ripe
      simp [gathering] at answered
    · obtain ⟨i', same, _, raw⟩ := p.waits hr' next'
      obtain rfl := Ticket.batch.inj same
      exact raw ripe

theorem finish_induction (backend : Backend κ ν σ) {P : Loader κ ν → σ → List (Running κ ν) → Prop}
    (pass : ∀ {now l s rs l' s' rs'}, PollsAll backend now rs l s rs' l' s' → P l s rs → P l' s' rs')
    (fuel now : Nat) {l : Loader κ ν} (s : σ) {rs : List (Running κ ν)} (w : Waiting l rs)
    (h : P l s rs) :
    P (finish backend fuel now l s rs).2.2.1 (finish backend fuel now l s rs).2.2.2
      (finish backend fuel now l s rs).1 := by
  induction fuel generalizing now l s rs with
  | zero => exact h
  | succ fuel ih =>
    unfold finish
    split
    · exact h
    · next due _ =>
      have p := pollAll_pollsAll backend (max now due) rs w.calm w.holds s
      exact ih (max now due) _ (p.waiting w) (pass p h)

theorem finish_ended (backend : Backend κ ν σ) (fuel now : Nat) {l : Loader κ ν} (s : σ)
    {rs : List (Running κ ν)} (w : Waiting l rs) (enough : (busy l rs).card ≤ fuel) :
    ∀ r ∈ (finish backend fuel now l s rs).1, ∃ outcome, r = .finished outcome := by
  induction fuel generalizing now l s rs with
  | zero =>
    have none_busy : busy l rs = ∅ := Finset.card_eq_zero.mp (Nat.le_zero.mp enough)
    intro r hr
    cases next : r.next? with
    | none => exact (w.settled r hr).ended next
    | some p =>
      obtain ⟨k, t⟩ := p
      obtain ⟨i, rfl, begun⟩ := (w.settled r hr).begun k t next
      have waited : i ∈ busy l rs := mem_busy.mpr ⟨begun.lt_length, .inr ⟨r, hr, k, next⟩⟩
      simp [none_busy] at waited
  | succ fuel ih =>
    unfold finish
    split
    · next none => exact w.of_nextDue_none none
    · next due some =>
      have p := pollAll_pollsAll backend (max now due) rs w.calm w.holds s
      obtain ⟨r, hr, k, i, next, ripe⟩ := w.of_nextDue_some some now
      have less := p.card_busy_lt w hr next ripe
      exact ih (max now due) _ (p.waiting w) (Nat.le_of_lt_succ (less.trans_le enough))

end InfraGraph.Loader

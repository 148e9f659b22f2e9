import InfraGraph.Proofs.Loader.Dispatch
import InfraGraph.Proofs.Loader.PlainMap

/-!
One poll of an operation under a clock. Awaiting a ticket does one of five things, and a poll is a row of
them. Under the clock a call is answered at once, so between polls no batch is in flight; each batch
gathers, begins its delay, and is answered, and never goes back.
-/

namespace InfraGraph.Loader

variable {κ ν σ : Type}

def Calm (l : Loader κ ν) : Prop :=
  ∀ (i : Nat) (b : Batch κ ν), l.batches[i]? = some b → b.stage ≠ .sent

/-- What awaiting a ticket of a key does, with its result, the loader and the backend after it. -/
inductive Awaits (backend : Backend κ ν σ) (now : Nat) (k : κ) (l : Loader κ ν) (s : σ) :
    Ticket ν → Option (Except Fault (Option ν)) → Loader κ ν → σ → Prop
  | primed (v : ν) : Awaits backend now k l s (.primed v) (some (.ok (some v))) l s
  | start {i : Nat} {keys : List κ} (here : l.batches[i]? = some ⟨keys, .gathering none⟩) :
      Awaits backend now k l s (.batch i) none
        (l.setStage i (.gathering (some (now + l.delay)))) s
  | wait {i : Nat} {keys : List κ} {due : Nat}
      (here : l.batches[i]? = some ⟨keys, .gathering (some due)⟩) (early : now < due) :
      Awaits backend now k l s (.batch i) none l s
  | fire {i : Nat} {keys : List κ} {due : Nat}
      (here : l.batches[i]? = some ⟨keys, .gathering (some due)⟩) (ripe : due ≤ now) :
      Awaits backend now k l s (.batch i) (some ((backend keys s).1.map (· k)))
        (l.setStage i (.answered (backend keys s).1)) (backend keys s).2
  | done {i : Nat} {keys : List κ} {answer : Answer κ ν}
      (here : l.batches[i]? = some ⟨keys, .answered answer⟩) :
      Awaits backend now k l s (.batch i) (some (answer.map (· k))) l s

theorem setStage_setStage (l : Loader κ ν) (i : Nat) (a b : Batch.Stage κ ν) :
    (l.setStage i a).setStage i b = l.setStage i b := by
  simp only [setStage, List.modify_modify_eq]
  rfl

theorem dispatch_eq (backend : Backend κ ν σ) {l : Loader κ ν} {i : Nat} {keys : List κ}
    {due : Option Nat} (here : l.batches[i]? = some ⟨keys, .gathering due⟩) (s : σ) :
    l.dispatch backend i s =
      (l.setStage i (.answered (backend keys s).1), (backend keys s).2) := by
  have closed : l.close i = some (keys, l.setStage i .sent) := close_eq_some.mpr ⟨due, here, rfl⟩
  have settled : (l.setStage i .sent).settle i (backend keys s).1 =
      some (l.setStage i (.answered (backend keys s).1)) :=
    settle_eq_some.mpr ⟨keys, setStage_here _ here, (setStage_setStage _ _ _ _).symm⟩
  simp [dispatch, closed, settled]

theorem await_awaits (backend : Backend κ ν σ) (now : Nat) {l : Loader κ ν} (calm : Calm l) {k : κ}
    {t : Ticket ν} (holds : Holds l k t) (s : σ) :
    Awaits backend now k l s t (l.await backend now k t s).1 (l.await backend now k t s).2.1
      (l.await backend now k t s).2.2 := by
  cases t with
  | primed v => exact .primed v
  | batch i =>
    obtain ⟨⟨keys, stage⟩, here, -⟩ := exists_batch_of_mem_keysAt (holds i rfl)
    cases stage with
    | gathering due =>
      cases due with
      | none => simpa [await, here, start_eq] using Awaits.start here
      | some due =>
        by_cases ripe : due ≤ now
        · have read : (l.setStage i (.answered (backend keys s).1)).read k (.batch i) =
              some ((backend keys s).1.map (· k)) := by
            simp [read, setStage_here _ here]
          have fired : Awaits backend now k l s (.batch i) _ _ _ := .fire here ripe
          simpa [await, here, ripe, dispatch_eq backend here, read] using fired
        · simpa [await, here, ripe] using Awaits.wait here (Nat.lt_of_not_le ripe)
    | sent => exact absurd rfl (calm i _ here)
    | answered answer => simpa [await, here, read] using Awaits.done here

inductive Polls (backend : Backend κ ν σ) (now : Nat) :
    Running κ ν → Loader κ ν → σ → Running κ ν → Loader κ ν → σ → Prop
  | finished (outcome : Outcome κ ν) (l : Loader κ ν) (s : σ) :
      Polls backend now (.finished outcome) l s (.finished outcome) l s
  | gathered (pairs : List (κ × ν)) (l : Loader κ ν) (s : σ) :
      Polls backend now (.gathering [] pairs) l s (.finished (.gathered (.ok pairs))) l s
  | wait {r : Running κ ν} {k : κ} {t : Ticket ν} {l l' : Loader κ ν} {s s' : σ}
      (next : r.next? = some (k, t)) (awaits : Awaits backend now k l s t none l' s') :
      Polls backend now r l s r l' s'
  | take {r r' : Running κ ν} {k : κ} {t : Ticket ν} {answer : Except Fault (Option ν)}
      {l l₁ l' : Loader κ ν} {s s₁ s' : σ} (next : r.next? = some (k, t))
      (awaits : Awaits backend now k l s t (some answer) l₁ s₁)
      (rest : Polls backend now (r.take answer) l₁ s₁ r' l' s') :
      Polls backend now r l s r' l' s'

/-- A stage that a batch may have reached from another, when no call stays in flight. -/
inductive Leads : Batch.Stage κ ν → Batch.Stage κ ν → Prop
  | same (stage : Batch.Stage κ ν) : Leads stage stage
  | start (due : Nat) : Leads (.gathering none) (.gathering (some due))
  | answer (due : Option Nat) (answer : Answer κ ν) : Leads (.gathering due) (.answered answer)

theorem Leads.trans {a b c : Batch.Stage κ ν} (ab : Leads a b) (bc : Leads b c) : Leads a c := by
  cases ab with
  | same _ => exact bc
  | start due =>
    cases bc with
    | same _ => exact .start due
    | answer _ answer => exact .answer none answer
  | answer due answer =>
    cases bc with
    | same _ => exact .answer due answer

/-- A loader at a later time: each batch holds what it held and has moved on, if at all. -/
def Later (l l' : Loader κ ν) : Prop :=
  ∀ (i : Nat) (b : Batch κ ν), l.batches[i]? = some b →
    ∃ b', l'.batches[i]? = some b' ∧ (∀ k ∈ b.keys, k ∈ b'.keys) ∧ Leads b.stage b'.stage

theorem Later.refl (l : Loader κ ν) : Later l l :=
  fun _ b h => ⟨b, h, fun _ => id, .same _⟩

theorem Later.trans {a b c : Loader κ ν} (ab : Later a b) (bc : Later b c) : Later a c := by
  intro i x h
  obtain ⟨y, hy, ky, sy⟩ := ab i x h
  obtain ⟨z, hz, kz, sz⟩ := bc i y hy
  exact ⟨z, hz, fun k hk => kz k (ky k hk), sy.trans sz⟩

theorem later_setStage {l : Loader κ ν} {i : Nat} {b : Batch κ ν} {stage : Batch.Stage κ ν}
    (here : l.batches[i]? = some b) (leads : Leads b.stage stage) : Later l (l.setStage i stage) := by
  intro j x h
  by_cases hj : i = j
  · subst hj
    obtain rfl : b = x := by simpa [here] using h
    exact ⟨_, setStage_here stage here, fun _ => id, leads⟩
  · exact ⟨x, by simp [setStage_getElem?, hj, h], fun _ => id, .same _⟩

theorem Later.holds {l l' : Loader κ ν} (later : Later l l') {k : κ} {t : Ticket ν}
    (h : Holds l k t) : Holds l' k t := by
  intro i hi
  obtain ⟨b, hb, hk⟩ := exists_batch_of_mem_keysAt (h i hi)
  obtain ⟨b', hb', keys, _⟩ := later i b hb
  rw [keysAt_of_getElem? hb']
  exact keys k (hk ▸ h i hi)

namespace Awaits

variable {backend : Backend κ ν σ} {now : Nat} {k : κ} {l l' : Loader κ ν} {s s' : σ} {t : Ticket ν}
  {result : Option (Except Fault (Option ν))}

theorem of_setStage {P : Loader κ ν → Prop} (keeps : ∀ l i stage, P l → P (l.setStage i stage))
    (a : Awaits backend now k l s t result l' s') (h : P l) : P l' := by
  cases a with
  | primed _ => exact h
  | start _ => exact keeps l _ _ h
  | wait _ _ => exact h
  | fire _ _ => exact keeps l _ _ h
  | done _ => exact h

theorem later (a : Awaits backend now k l s t result l' s') : Later l l' := by
  cases a with
  | primed _ => exact .refl l
  | start here => exact later_setStage here (.start _)
  | wait _ _ => exact .refl l
  | fire here _ => exact later_setStage here (.answer _ _)
  | done _ => exact .refl l

theorem calm (a : Awaits backend now k l s t result l' s') (h : Calm l) : Calm l' := by
  intro i b hb
  have set : ∀ {j : Nat} {stage : Batch.Stage κ ν}, stage ≠ .sent →
      (l.setStage j stage).batches[i]? = some b → b.stage ≠ .sent := by
    intro j stage ne hb
    rw [setStage_getElem?] at hb
    split at hb
    · obtain ⟨b', _, rfl⟩ := Option.map_eq_some_iff.mp hb
      exact ne
    · exact h i b hb
  cases a with
  | primed _ => exact h i b hb
  | start _ => exact set (by simp) hb
  | wait _ _ => exact h i b hb
  | fire _ _ => exact set (by simp) hb
  | done _ => exact h i b hb

theorem read_eq {answer : Except Fault (Option ν)}
    (a : Awaits backend now k l s t (some answer) l' s') : l'.read k t = some answer := by
  cases a with
  | primed _ => rfl
  | fire here _ => simp [read, setStage_here _ here]
  | done here => simp [read, here]

end Awaits

/-- A stage in which awaiting a batch gets an answer: the delay is over, or the answer is there. -/
inductive Over (now : Nat) : Batch.Stage κ ν → Prop
  | due {due : Nat} (past : due ≤ now) : Over now (.gathering (some due))
  | answered (answer : Answer κ ν) : Over now (.answered answer)

theorem Over.later {now : Nat} {a b : Batch.Stage κ ν} (past : Over now a) (leads : Leads a b) :
    Over now b := by
  cases past with
  | due past =>
    cases leads with
    | same _ => exact .due past
    | answer _ answer => exact .answered answer
  | answered answer =>
    cases leads with
    | same _ => exact .answered answer

def Ripe (now : Nat) (l : Loader κ ν) (i : Nat) : Prop :=
  ∃ b, l.batches[i]? = some b ∧ Over now b.stage

theorem Later.ripe {now : Nat} {l l' : Loader κ ν} (later : Later l l') {i : Nat}
    (h : Ripe now l i) : Ripe now l' i := by
  obtain ⟨b, hb, past⟩ := h
  obtain ⟨b', hb', _, leads⟩ := later i b hb
  exact ⟨b', hb', past.later leads⟩

def Begun (l : Loader κ ν) (i : Nat) : Prop :=
  ∃ now, Ripe now l i

theorem Later.begun {l l' : Loader κ ν} (later : Later l l') {i : Nat} (h : Begun l i) :
    Begun l' i := by
  obtain ⟨now, ripe⟩ := h
  exact ⟨now, later.ripe ripe⟩

def AnsweredAt (l : Loader κ ν) (i : Nat) : Prop :=
  ∃ keys answer, l.batches[i]? = some ⟨keys, .answered answer⟩

theorem Later.answeredAt {l l' : Loader κ ν} (later : Later l l') {i : Nat} (h : AnsweredAt l i) :
    AnsweredAt l' i := by
  obtain ⟨keys, answer, hb⟩ := h
  obtain ⟨⟨keys', stage⟩, hb', _, leads⟩ := later i _ hb
  cases leads with
  | same _ => exact ⟨keys', answer, hb'⟩

def GatheringAt (l : Loader κ ν) (i : Nat) : Prop :=
  ∃ keys due, l.batches[i]? = some ⟨keys, .gathering due⟩

theorem Later.gatheringAt {l l' : Loader κ ν} (later : Later l l') {i : Nat}
    (inside : i < l.batches.length) (h : GatheringAt l' i) : GatheringAt l i := by
  obtain ⟨keys, due, hb⟩ := h
  obtain ⟨⟨keys', stage⟩, hb'⟩ : ∃ b, l.batches[i]? = some b := ⟨_, List.getElem?_eq_getElem inside⟩
  obtain ⟨b, hb'', _, leads⟩ := later i _ hb'
  obtain rfl : ⟨keys, .gathering due⟩ = b := by simpa [hb] using hb''
  cases leads with
  | same _ => exact ⟨keys', due, hb'⟩
  | start _ => exact ⟨keys', none, hb'⟩

namespace Polls

variable {backend : Backend κ ν σ} {now : Nat} {r r' : Running κ ν} {l l' : Loader κ ν} {s s' : σ}

theorem of_setStage {P : Loader κ ν → Prop} (keeps : ∀ l i stage, P l → P (l.setStage i stage))
    (p : Polls backend now r l s r' l' s') (h : P l) : P l' := by
  induction p with
  | finished _ _ _ => exact h
  | gathered _ _ _ => exact h
  | wait _ awaits => exact awaits.of_setStage keeps h
  | take _ awaits _ ih => exact ih (awaits.of_setStage keeps h)

theorem later (p : Polls backend now r l s r' l' s') : Later l l' := by
  induction p with
  | finished _ l _ => exact .refl l
  | gathered _ l _ => exact .refl l
  | wait _ awaits => exact awaits.later
  | take _ awaits _ ih => exact awaits.later.trans ih

theorem calm (p : Polls backend now r l s r' l' s') (h : Calm l) : Calm l' := by
  induction p with
  | finished _ _ _ => exact h
  | gathered _ _ _ => exact h
  | wait _ awaits => exact awaits.calm h
  | take _ awaits _ ih => exact ih (awaits.calm h)

theorem tickets (p : Polls backend now r l s r' l' s') : ∀ q ∈ r'.tickets, q ∈ r.tickets := by
  induction p with
  | finished _ _ _ => exact fun _ => id
  | gathered _ _ _ => simp [Running.tickets]
  | wait _ _ => exact fun _ => id
  | take _ _ _ ih => exact fun q hq => Running.take_tickets _ _ q (ih q hq)

theorem waits (p : Polls backend now r l s r' l' s') {k : κ} {t : Ticket ν}
    (next : r'.next? = some (k, t)) :
    ∃ i, t = .batch i ∧ Begun l' i ∧ GatheringAt l' i ∧ ¬ Ripe now l i := by
  induction p with
  | finished _ _ _ => simp [Running.next?] at next
  | gathered _ _ _ => simp [Running.next?] at next
  | @wait _ _ _ l _ _ _ next' awaits =>
    obtain ⟨rfl, rfl⟩ : _ = k ∧ _ = t := by simpa [next'] using next
    cases awaits with
    | start here =>
      have after := setStage_here (.gathering (some (now + l.delay))) here
      refine ⟨_, rfl, ⟨_, _, after, .due (Nat.le_refl _)⟩, ⟨_, _, after⟩, ?_⟩
      rintro ⟨b, hb, past⟩
      obtain rfl : _ = b := Option.some.inj (here.symm.trans hb)
      cases past
    | wait here early =>
      refine ⟨_, rfl, ⟨_, _, here, .due (Nat.le_refl _)⟩, ⟨_, _, here⟩, ?_⟩
      rintro ⟨b, hb, past⟩
      obtain rfl : _ = b := Option.some.inj (here.symm.trans hb)
      cases past with
      | due past => exact Nat.not_lt.mpr past early
  | take _ awaits _ ih =>
    obtain ⟨i, hi, begun, gathering, raw⟩ := ih next
    exact ⟨i, hi, begun, gathering, fun ripe => raw (awaits.later.ripe ripe)⟩

theorem answered (p : Polls backend now r l s r' l' s') {k : κ} {i : Nat}
    (next : r.next? = some (k, .batch i)) (ripe : Ripe now l i) : AnsweredAt l' i := by
  obtain ⟨b, hb, past⟩ := ripe
  cases p with
  | finished _ _ _ => simp [Running.next?] at next
  | gathered _ _ _ => simp [Running.next?] at next
  | wait next' awaits =>
    obtain ⟨rfl, rfl⟩ : _ = k ∧ _ = Ticket.batch i := by simpa [next'] using next
    cases awaits with
    | start here =>
      obtain rfl : _ = b := Option.some.inj (here.symm.trans hb)
      cases past
    | wait here early =>
      obtain rfl : _ = b := Option.some.inj (here.symm.trans hb)
      cases past with
      | due past => exact absurd early (Nat.not_lt.mpr past)
  | take next' awaits rest =>
    obtain ⟨rfl, rfl⟩ : _ = k ∧ _ = Ticket.batch i := by simpa [next'] using next
    refine rest.later.answeredAt ?_
    cases awaits with
    | fire here _ => exact ⟨_, _, setStage_here _ here⟩
    | done here => exact ⟨_, _, here⟩

end Polls

theorem gather_polls (backend : Backend κ ν σ) (now : Nat) (rest : List (κ × Ticket ν))
    (pairs : List (κ × ν)) {l : Loader κ ν} (calm : Calm l)
    (holds : ∀ p ∈ rest, Holds l p.1 p.2) (s : σ) :
    Polls backend now (.gathering rest pairs) l s (gather backend now rest pairs l s).1
      (gather backend now rest pairs l s).2.1 (gather backend now rest pairs l s).2.2 := by
  induction rest generalizing pairs l s with
  | nil => exact .gathered pairs l s
  | cons p rest ih =>
    obtain ⟨k, t⟩ := p
    have awaits := await_awaits backend now calm (holds (k, t) (by simp)) s
    have more : ∀ p ∈ rest, Holds (l.await backend now k t s).2.1 p.1 p.2 := fun p hp =>
      awaits.later.holds (holds p (List.mem_cons_of_mem _ hp))
    unfold gather
    generalize l.await backend now k t s = out at awaits more
    obtain ⟨result, l₁, s₁⟩ := out
    have next : (Running.gathering ((k, t) :: rest) pairs).next? = some (k, t) := rfl
    match result with
    | none => exact .wait next awaits
    | some (.error f) => exact .take next awaits (.finished _ _ _)
    | some (.ok none) => exact .take next awaits (ih pairs (awaits.calm calm) more s₁)
    | some (.ok (some v)) => exact .take next awaits (ih _ (awaits.calm calm) more s₁)

theorem poll_polls (backend : Backend κ ν σ) (now : Nat) (r : Running κ ν) {l : Loader κ ν}
    (calm : Calm l) (holds : ∀ p ∈ r.tickets, Holds l p.1 p.2) (s : σ) :
    Polls backend now r l s (r.poll backend now l s).1 (r.poll backend now l s).2.1
      (r.poll backend now l s).2.2 := by
  cases r with
  | finished outcome => exact .finished outcome l s
  | gathering rest pairs => exact gather_polls backend now rest pairs calm holds s
  | loading k t =>
    have awaits := await_awaits backend now calm (holds (k, t) (by simp [Running.tickets])) s
    simp only [Running.poll]
    generalize l.await backend now k t s = out at awaits
    obtain ⟨result, l₁, s₁⟩ := out
    cases result with
    | none => exact .wait rfl awaits
    | some answer => exact .take rfl awaits (.finished _ _ _)

end InfraGraph.Loader

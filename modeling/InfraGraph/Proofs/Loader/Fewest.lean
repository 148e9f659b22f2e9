import InfraGraph.Proofs.Loader.Packing
import InfraGraph.Proofs.Loader.Recording
import InfraGraph.Proofs.Loader.Sharing

/-!
Lookups that start together make the fewest calls. While they are launched nothing is sent, so their keys
are packed into as few batches as can hold them. Each batch that was opened has a lookup that holds a ticket
of it, and a lookup lets go of a ticket only when the batch is answered; so when all have come to their end,
all batches were sent. The calls on record are those of the batches that were sent since.
-/

namespace InfraGraph.Loader

variable {κ ν σ : Type}

def sentKeys (l : Loader κ ν) : List (List κ) :=
  (l.batches.filter fun b => !b.isGathering).map Batch.keys

theorem exists_setStage {l : Loader κ ν} {i : Nat} {b : Batch κ ν} (here : l.batches[i]? = some b) :
    ∃ front rest, l.batches = front ++ b :: rest ∧
      ∀ stage, (l.setStage i stage).batches = front ++ ⟨b.keys, stage⟩ :: rest := by
  obtain ⟨inside, rfl⟩ := List.getElem?_eq_some_iff.mp here
  refine ⟨l.batches.take i, l.batches.drop (i + 1), ?_, fun stage => ?_⟩
  · rw [← List.drop_eq_getElem_cons inside, List.take_append_drop]
  · exact List.modify_eq_take_cons_drop inside

theorem sentKeys_start {l : Loader κ ν} {i : Nat} {keys : List κ} {due : Option Nat}
    (here : l.batches[i]? = some ⟨keys, .gathering due⟩) (due' : Option Nat) :
    sentKeys (l.setStage i (.gathering due')) = sentKeys l := by
  obtain ⟨front, rest, parts, after⟩ := exists_setStage here
  simp [sentKeys, parts, after, Batch.isGathering]

theorem sentKeys_answer {l : Loader κ ν} {i : Nat} {keys : List κ} {due : Option Nat}
    (here : l.batches[i]? = some ⟨keys, .gathering due⟩) (answer : Answer κ ν) :
    (sentKeys (l.setStage i (.answered answer))).Perm (sentKeys l ++ [keys]) := by
  obtain ⟨front, rest, parts, after⟩ := exists_setStage here
  apply List.Perm.trans _ (List.perm_append_singleton keys (sentKeys l)).symm
  simp [sentKeys, parts, after, Batch.isGathering]

theorem sentKeys_joins {l l' : Loader κ ν} {k : κ} (joins : Joins l k l'.batches) :
    sentKeys l' = sentKeys l := by
  unfold sentKeys
  generalize l'.batches = after at joins
  cases joins with
  | @joined front b newest gathers _ =>
    have same : ({ b with keys := b.keys ++ [k] } : Batch κ ν).isGathering := gathers
    simp [newest, gathers, same]
  | opened _ => simp [Batch.isGathering]

/-- The calls that were put on record in between are those of the batches that were sent in between. -/
def Recorded (l : Loader κ ν) (s : σ × List (List κ)) (l' : Loader κ ν) (s' : σ × List (List κ)) : Prop :=
  ∃ made, s'.2 = s.2 ++ made ∧ (sentKeys l').Perm (sentKeys l ++ made)

theorem recorded_of_eq {l l' : Loader κ ν} (same : sentKeys l' = sentKeys l) (s : σ × List (List κ)) :
    Recorded l s l' s :=
  ⟨[], (List.append_nil _).symm, by rw [same, List.append_nil]⟩

theorem Recorded.refl (l : Loader κ ν) (s : σ × List (List κ)) : Recorded l s l s :=
  recorded_of_eq rfl s

theorem Recorded.trans {l l₁ l' : Loader κ ν} {s s₁ s' : σ × List (List κ)} (first : Recorded l s l₁ s₁)
    (second : Recorded l₁ s₁ l' s') : Recorded l s l' s' := by
  obtain ⟨made, log, sent⟩ := first
  obtain ⟨made', log', sent'⟩ := second
  refine ⟨made ++ made', by rw [log', log, List.append_assoc], ?_⟩
  rw [← List.append_assoc]
  exact sent'.trans (sent.append_right made')

section Polling

variable {backend : Backend κ ν σ} {now : Nat} {l l' : Loader κ ν} {s s' : σ × List (List κ)}

theorem Awaits.recorded {k : κ} {t : Ticket ν} {result : Option (Except Fault (Option ν))}
    (a : Awaits (recording backend) now k l s t result l' s') : Recorded l s l' s' := by
  cases a with
  | primed _ => exact .refl l s
  | start here => exact recorded_of_eq (sentKeys_start here _) s
  | wait _ _ => exact .refl l s
  | @fire _ keys _ here _ => exact ⟨[keys], rfl, sentKeys_answer here _⟩
  | done _ => exact .refl l s

theorem Polls.recorded {r r' : Running κ ν} (p : Polls (recording backend) now r l s r' l' s') :
    Recorded l s l' s' := by
  induction p with
  | finished _ l s => exact .refl l s
  | gathered _ l s => exact .refl l s
  | wait _ awaits => exact awaits.recorded
  | take _ awaits _ ih => exact awaits.recorded.trans ih

theorem PollsAll.recorded {rs rs' : List (Running κ ν)}
    (p : PollsAll (recording backend) now rs l s rs' l' s') : Recorded l s l' s' := by
  induction p with
  | nil l s => exact .refl l s
  | cons polls _ ih => exact polls.recorded.trans ih

end Polling

def Unfailing (backend : Backend κ ν σ) : Prop :=
  ∀ keys s, ∃ g, (backend keys s).1 = .ok g

theorem Unfailing.recording {backend : Backend κ ν σ} (unfailing : Unfailing backend) :
    Unfailing (recording backend) :=
  fun keys s => unfailing keys s.1

def Unfailed (l : Loader κ ν) : Prop :=
  ∀ (i : Nat) (keys : List κ) (f : Fault), l.batches[i]? ≠ some ⟨keys, .answered (.error f)⟩

theorem Unfailed.setStage {l : Loader κ ν} (unfailed : Unfailed l) (i : Nat) {stage : Batch.Stage κ ν}
    (new : ∀ f, stage ≠ .answered (.error f)) : Unfailed (l.setStage i stage) := by
  intro j keys f here
  rw [setStage_getElem?] at here
  split at here
  · obtain ⟨b, _, same⟩ := Option.map_eq_some_iff.mp here
    exact new f (Batch.mk.inj same).2
  · exact unfailed j keys f here

theorem Unfailed.enqueue [DecidableEq κ] {l : Loader κ ν} (unfailed : Unfailed l) (k : κ) :
    Unfailed (l.enqueue k).2 := by
  intro i keys f here
  rcases (Change.enqueue 0 k).answered_iff.mp here with old | new
  · exact unfailed i keys f old
  · cases new

theorem Awaits.unfailed {backend : Backend κ ν σ} {now : Nat} {k : κ} {l l' : Loader κ ν} {s s' : σ}
    {t : Ticket ν} {result : Option (Except Fault (Option ν))}
    (a : Awaits backend now k l s t result l' s') (unfailing : Unfailing backend)
    (unfailed : Unfailed l) : Unfailed l' ∧ ∀ answer, result = some answer → ∃ v, answer = .ok v := by
  cases a with
  | primed v => exact ⟨unfailed, by rintro _ ⟨⟩; exact ⟨_, rfl⟩⟩
  | start _ => exact ⟨unfailed.setStage _ (by simp), by simp⟩
  | wait _ _ => exact ⟨unfailed, by simp⟩
  | @fire _ keys _ _ _ =>
    obtain ⟨g, ok⟩ := unfailing keys s
    rw [ok]
    exact ⟨unfailed.setStage _ (by simp), by rintro _ ⟨⟩; exact ⟨_, rfl⟩⟩
  | @done _ keys answer here =>
    cases answer with
    | error f => exact absurd here (unfailed _ keys f)
    | ok g => exact ⟨unfailed, by rintro _ ⟨⟩; exact ⟨_, rfl⟩⟩

theorem Awaits.answeredAt {backend : Backend κ ν σ} {now : Nat} {k : κ} {l l' : Loader κ ν} {s s' : σ}
    {i : Nat} {answer : Except Fault (Option ν)}
    (a : Awaits backend now k l s (.batch i) (some answer) l' s') : AnsweredAt l' i := by
  cases a with
  | fire here _ => exact ⟨_, _, setStage_here _ here⟩
  | done here => exact ⟨_, _, here⟩

theorem Running.tickets_take {r : Running κ ν} {p : κ × Ticket ν} (next : r.next? = some p)
    (v : Option ν) : r.tickets = p :: (r.take (.ok v)).tickets := by
  cases r with
  | finished _ => cases next
  | loading k t =>
    obtain rfl := Option.some.inj next
    rfl
  | gathering rest found =>
    cases rest with
    | nil => cases next
    | cons head rest =>
      obtain rfl := Option.some.inj next
      cases v <;> rfl

theorem Polls.kept {backend : Backend κ ν σ} {now : Nat} {r r' : Running κ ν} {l l' : Loader κ ν}
    {s s' : σ} (p : Polls backend now r l s r' l' s') (unfailing : Unfailing backend)
    (unfailed : Unfailed l) :
    Unfailed l' ∧ ∀ k i, (k, .batch i) ∈ r.tickets → (k, .batch i) ∈ r'.tickets ∨ AnsweredAt l' i := by
  induction p with
  | finished _ _ _ => exact ⟨unfailed, fun _ _ mem => .inl mem⟩
  | gathered _ _ _ => exact ⟨unfailed, fun _ _ mem => by cases mem⟩
  | wait _ awaits => exact ⟨(awaits.unfailed unfailing unfailed).1, fun _ _ mem => .inl mem⟩
  | take next awaits rest ih =>
    obtain ⟨unfailed', ok⟩ := awaits.unfailed unfailing unfailed
    obtain ⟨v, rfl⟩ := ok _ rfl
    obtain ⟨unfailed'', kept⟩ := ih unfailed'
    refine ⟨unfailed'', fun k i mem => ?_⟩
    rw [Running.tickets_take next v] at mem
    rcases List.mem_cons.mp mem with same | later
    · obtain ⟨rfl, rfl⟩ := Prod.mk.inj same
      exact .inr (rest.later.answeredAt awaits.answeredAt)
    · exact kept k i later

/-- Of the batches from a number on, each is answered, or some lookup has a ticket of it. -/
def Covers (n : Nat) (l : Loader κ ν) (rs : List (Running κ ν)) : Prop :=
  ∀ i, n ≤ i → i < l.batches.length → AnsweredAt l i ∨ ∃ r ∈ rs, ∃ k, (k, .batch i) ∈ r.tickets

theorem PollsAll.kept {backend : Backend κ ν σ} {now : Nat} {rs rs' : List (Running κ ν)}
    {l l' : Loader κ ν} {s s' : σ} (p : PollsAll backend now rs l s rs' l' s')
    (unfailing : Unfailing backend) (unfailed : Unfailed l) :
    Unfailed l' ∧ ∀ r ∈ rs, ∀ k i, (k, .batch i) ∈ r.tickets →
      AnsweredAt l' i ∨ ∃ r' ∈ rs', (k, .batch i) ∈ r'.tickets := by
  induction p with
  | nil _ _ => exact ⟨unfailed, by simp⟩
  | cons polls rest ih =>
    obtain ⟨unfailed', first⟩ := polls.kept unfailing unfailed
    obtain ⟨unfailed'', others⟩ := ih unfailed'
    refine ⟨unfailed'', fun r mem k i ticket => ?_⟩
    rcases List.mem_cons.mp mem with rfl | later
    · rcases first k i ticket with still | answered
      · exact .inr ⟨_, List.mem_cons_self, still⟩
      · exact .inl (rest.later.answeredAt answered)
    · rcases others r later k i ticket with answered | ⟨r', mem', still⟩
      · exact .inl answered
      · exact .inr ⟨r', List.mem_cons_of_mem _ mem', still⟩

theorem PollsAll.covers {backend : Backend κ ν σ} {now : Nat} {rs rs' : List (Running κ ν)}
    {l l' : Loader κ ν} {s s' : σ} (p : PollsAll backend now rs l s rs' l' s')
    (unfailing : Unfailing backend) (unfailed : Unfailed l) {n : Nat} (covers : Covers n l rs) :
    Covers n l' rs' := by
  intro i new inside
  rw [p.length] at inside
  rcases covers i new inside with answered | ⟨r, mem, k, ticket⟩
  · exact .inl (p.later.answeredAt answered)
  · obtain answered | ⟨r', mem', still⟩ := (p.kept unfailing unfailed).2 r mem k i ticket
    · exact .inl answered
    · exact .inr ⟨r', mem', k, still⟩

theorem sentKeys_of_answered {l : Loader κ ν} (answered : ∀ i < l.batches.length, AnsweredAt l i) :
    sentKeys l = l.batches.map Batch.keys := by
  rw [sentKeys, List.filter_eq_self.mpr]
  intro b mem
  obtain ⟨i, inside, rfl⟩ := List.mem_iff_getElem.mp mem
  obtain ⟨keys, answer, here⟩ := answered i inside
  rw [List.getElem?_eq_getElem inside] at here
  rw [Option.some.inj here]
  rfl

theorem Covers.answered {l : Loader κ ν} {n : Nat} {rs : List (Running κ ν)} (covers : Covers n l rs)
    (old : ∀ i < n, AnsweredAt l i) (ended : ∀ r ∈ rs, ∃ outcome, r = .finished outcome) :
    ∀ i < l.batches.length, AnsweredAt l i := by
  intro i inside
  by_cases new : n ≤ i
  · rcases covers i new inside with answered | ⟨r, mem, k, ticket⟩
    · exact answered
    · obtain ⟨outcome, rfl⟩ := ended r mem
      cases ticket
  · exact old i (Nat.lt_of_not_le new)

/-- Where operations have brought a loader while no call failed: what they had put on record was sent, and
each batch that they opened is answered, or one of them has a ticket of it. -/
structure Brings (l : Loader κ ν) (s : σ × List (List κ)) (rs : List (Running κ ν)) (l' : Loader κ ν)
    (s' : σ × List (List κ)) : Prop where
  unfailed : Unfailed l'
  recorded : Recorded l s l' s'
  covers : Covers l.batches.length l' rs
  later : Later l l'

namespace Brings

variable {l l₁ l' : Loader κ ν} {s s₁ s' : σ × List (List κ)} {r : Running κ ν} {rs rs' : List (Running κ ν)}

theorem nil (unfailed : Unfailed l) (s : σ × List (List κ)) : Brings l s [] l s where
  unfailed := unfailed
  recorded := .refl l s
  covers _ new inside := absurd inside (Nat.not_lt.mpr new)
  later := .refl l

theorem cons (first : Brings l s [r] l₁ s₁) (rest : Brings l₁ s₁ rs l' s') : Brings l s (r :: rs) l' s' where
  unfailed := rest.unfailed
  recorded := first.recorded.trans rest.recorded
  covers i new inside := by
    by_cases early : i < l₁.batches.length
    · rcases first.covers i new early with answered | ⟨r', mem, k, ticket⟩
      · exact .inl (rest.later.answeredAt answered)
      · obtain rfl := List.mem_singleton.mp mem
        exact .inr ⟨r', List.mem_cons_self, k, ticket⟩
    · rcases rest.covers i (Nat.le_of_not_lt early) inside with answered | ⟨r', mem, held⟩
      · exact .inl answered
      · exact .inr ⟨r', List.mem_cons_of_mem _ mem, held⟩
  later := first.later.trans rest.later

theorem pass {backend : Backend κ ν σ} {now : Nat} (brings : Brings l s rs l₁ s₁)
    (p : PollsAll (recording backend) now rs l₁ s₁ rs' l' s') (unfailing : Unfailing backend) :
    Brings l s rs' l' s' where
  unfailed := (p.kept unfailing.recording brings.unfailed).1
  recorded := brings.recorded.trans p.recorded
  covers := p.covers unfailing.recording brings.unfailed brings.covers
  later := brings.later.trans p.later

theorem made (brings : Brings l s rs l' s') (old : ∀ i < l.batches.length, AnsweredAt l i)
    (ended : ∀ r ∈ rs, ∃ outcome, r = .finished outcome) :
    ∃ made, s'.2 = s.2 ++ made ∧
      (l'.batches.map Batch.keys).Perm (l.batches.map Batch.keys ++ made) := by
  obtain ⟨made, log, sent⟩ := brings.recorded
  have answered := brings.covers.answered (fun i inside => brings.later.answeredAt (old i inside)) ended
  rw [sentKeys_of_answered old, sentKeys_of_answered answered] at sent
  exact ⟨made, log, sent⟩

end Brings

section Keys

variable [DecidableEq κ]

theorem sentKeys_enqueue (l : Loader κ ν) (k : κ) : sentKeys (l.enqueue k).2 = sentKeys l := by
  cases known : l.ticket? k with
  | some t => rw [enqueue_of_ticket known]
  | none =>
    rw [enqueue_of_unknown known]
    exact sentKeys_joins (join_joins l k)

theorem sentKeys_enqueueAll (l : Loader κ ν) (ks : List κ) : sentKeys (l.enqueueAll ks).2 = sentKeys l := by
  induction ks generalizing l with
  | nil => rfl
  | cons k ks ih => exact (ih _).trans (sentKeys_enqueue l k)

theorem enqueue_opens {l : Loader κ ν} {k : κ} {i : Nat} (new : l.batches.length ≤ i)
    (inside : i < (l.enqueue k).2.batches.length) : (l.enqueue k).1 = .batch i := by
  cases known : l.ticket? k with
  | some t =>
    rw [enqueue_of_ticket known] at inside
    exact absurd inside (Nat.not_lt.mpr new)
  | none =>
    obtain ⟨j, enters⟩ := enqueue_enters known
    rw [enters.ticket]
    by_contra other
    have absent := enters.other i fun same => other (same ▸ rfl)
    rw [List.getElem?_eq_none new, List.getElem?_eq_none_iff] at absent
    exact absurd inside (Nat.not_lt.mpr absent)

theorem enqueueAll_opens {l : Loader κ ν} {ks : List κ} {i : Nat} (new : l.batches.length ≤ i)
    (inside : i < (l.enqueueAll ks).2.batches.length) : ∃ k, (k, .batch i) ∈ (l.enqueueAll ks).1 := by
  induction ks generalizing l with
  | nil => exact absurd inside (Nat.not_lt.mpr new)
  | cons k ks ih =>
    by_cases here : i < (l.enqueue k).2.batches.length
    · exact ⟨k, List.mem_cons.mpr (.inl (congrArg (Prod.mk k) (enqueue_opens new here).symm))⟩
    · obtain ⟨k', mem⟩ := ih (Nat.le_of_not_lt here) inside
      exact ⟨k', List.mem_cons_of_mem _ mem⟩

theorem enqueueAll_holds {l : Loader κ ν} (assigned : Assigned l) (ks : List κ) :
    ∀ p ∈ (l.enqueueAll ks).1, Holds (l.enqueueAll ks).2 p.1 p.2 := by
  induction ks generalizing l with
  | nil => simp [enqueueAll]
  | cons k ks ih =>
    have entered := assigned.enqueue k
    intro p mem
    rcases List.mem_cons.mp mem with rfl | later
    · apply (enqueueAll_later (l.enqueue k).2 ks).holds
      intro i ticket
      exact entered.holds i k ((enqueue_ticket? l k).trans (congrArg some ticket))
    · exact ih entered p later

/-- A loader while operations are launched: no batch was sent since, and no delay is over. -/
structure Ready (now : Nat) (l₀ : Loader κ ν) (asked : List κ) (l : Loader κ ν) : Prop where
  packed : Packed l₀ asked l
  unripe : Unripe now l
  unfailed : Unfailed l
  calm : Calm l
  assigned : Assigned l

theorem Ready.enqueueAll {now : Nat} {l₀ l : Loader κ ν} {asked : List κ} (ready : Ready now l₀ asked l)
    (ks : List κ) : Ready now l₀ (asked ++ ks) (l.enqueueAll ks).2 := by
  induction ks generalizing l asked with
  | nil => rwa [List.append_nil]
  | cons k ks ih =>
    rw [List.append_cons]
    exact ih ⟨ready.packed.enqueue k, ready.unripe.enqueue k, ready.unfailed.enqueue k,
      ready.calm.enqueue k, ready.assigned.enqueue k⟩

def Operation.isLookup : Operation κ ν → Bool
  | load _ => true
  | loadMany _ => true
  | _ => false

omit [DecidableEq κ] in
theorem launch_eq [BEq κ] {o : Operation κ ν} (lookup : o.isLookup) (backend : Backend κ ν σ) (now : Nat)
    (l : Loader κ ν) (s : σ) :
    ∃ r : Running κ ν, r.tickets = (l.enqueueAll o.keys).1 ∧
      l.launch backend now s o = r.poll backend now (l.enqueueAll o.keys).2 s := by
  cases o with
  | load k => exact ⟨.loading k (l.enqueue k).1, rfl, rfl⟩
  | loadMany ks => exact ⟨.gathering (l.enqueueAll ks).1 [], rfl, rfl⟩
  | prime _ _ => cases lookup
  | abandon _ => cases lookup

theorem Ready.launch {now : Nat} {l₀ l : Loader κ ν} {asked : List κ} (ready : Ready now l₀ asked l)
    {o : Operation κ ν} (lookup : o.isLookup) {backend : Backend κ ν σ} (unfailing : Unfailing backend)
    (s : σ × List (List κ)) :
    let out := l.launch (recording backend) now s o
    Packed l₀ (asked ++ o.keys) out.2.1 ∧ Brings l s [out.1] out.2.1 out.2.2 ∧
      (1 ≤ l₀.delay → Ready now l₀ (asked ++ o.keys) out.2.1) := by
  obtain ⟨r, tickets, launch⟩ := launch_eq lookup (recording backend) now l s
  have enqueued := ready.enqueueAll o.keys
  have holds : ∀ p ∈ r.tickets, Holds (l.enqueueAll o.keys).2 p.1 p.2 := by
    rw [tickets]
    exact enqueueAll_holds ready.assigned o.keys
  have polls := poll_polls (recording backend) now r enqueued.calm holds s
  rw [launch]
  generalize r.poll (recording backend) now (l.enqueueAll o.keys).2 s = out at polls
  have packed := enqueued.packed.poll polls enqueued.unripe
  obtain ⟨unfailed, kept⟩ := polls.kept unfailing.recording enqueued.unfailed
  have same : out.2.1.batches.length = (l.enqueueAll o.keys).2.batches.length :=
    polls.of_setStage (P := fun l' => l'.batches.length = (l.enqueueAll o.keys).2.batches.length)
      length_setStage rfl
  refine ⟨packed, ⟨unfailed, ?_, fun i new inside => ?_, ?_⟩, fun pause => ⟨packed, ?_, unfailed, ?_, ?_⟩⟩
  · exact (recorded_of_eq (sentKeys_enqueueAll l o.keys) s).trans polls.recorded
  · obtain ⟨k, mem⟩ := enqueueAll_opens new (same ▸ inside)
    rw [← tickets] at mem
    rcases kept k i mem with still | answered
    · exact .inr ⟨out.1, List.mem_cons_self, k, still⟩
    · exact .inl answered
  · exact (enqueueAll_later l o.keys).trans polls.later
  · exact enqueued.unripe.poll polls (enqueued.packed.delay ▸ pause)
  · exact polls.calm enqueued.calm
  · exact polls.of_setStage (fun _ _ _ assigned => assigned.setStage _ _) enqueued.assigned

theorem Ready.launchAll {now : Nat} {l₀ : Loader κ ν} {backend : Backend κ ν σ}
    (unfailing : Unfailing backend) (os : List (Operation κ ν)) {l : Loader κ ν} {asked : List κ}
    (ready : Ready now l₀ asked l) (lookups : ∀ o ∈ os, o.isLookup) (pause : 1 ≤ l₀.delay ∨ os.length ≤ 1)
    (s : σ × List (List κ)) :
    let out := l.launchAll (recording backend) now s os
    Packed l₀ (asked ++ os.flatMap Operation.keys) out.2.1 ∧ Brings l s out.1 out.2.1 out.2.2 := by
  induction os generalizing l asked s with
  | nil =>
    rw [List.flatMap_nil, List.append_nil]
    exact ⟨ready.packed, .nil ready.unfailed s⟩
  | cons o os ih =>
    have ⟨packed, first, still⟩ := ready.launch (lookups o List.mem_cons_self) unfailing s
    rw [List.flatMap_cons, ← List.append_assoc]
    rcases pause with pause | single
    · have others : ∀ o ∈ os, o.isLookup := fun o mem => lookups o (List.mem_cons_of_mem _ mem)
      have ⟨packed', rest⟩ := ih (still pause) others (.inl pause) (l.launch (recording backend) now s o).2.2
      exact ⟨packed', first.cons rest⟩
    · obtain rfl : os = [] := List.eq_nil_of_length_eq_zero (by simpa using single)
      rw [List.flatMap_nil, List.append_nil]
      exact ⟨packed, first.cons (.nil first.unfailed _)⟩

/-- A loader at rest: each batch was sent and answered, and none failed. A lookup of many keys that meets a
failed batch stops there, and its other batches are not sent. -/
def Rests (l : Loader κ ν) : Prop :=
  ∀ b ∈ l.batches, ∃ g, b.stage = .answered (.ok g)

omit [DecidableEq κ] in
theorem Rests.answeredAt {l : Loader κ ν} (rests : Rests l) : ∀ i < l.batches.length, AnsweredAt l i := by
  intro i inside
  obtain ⟨g, answered⟩ := rests _ (List.getElem_mem inside)
  exact ⟨_, .ok g, by rw [List.getElem?_eq_getElem inside, ← answered]⟩

theorem Rests.ready {l : Loader κ ν} (rests : Rests l) (assigned : Assigned l) (now : Nat) :
    Ready now l [] l := by
  have stages {i : Nat} {b : Batch κ ν} (here : l.batches[i]? = some b) :
      ∃ g, b.stage = .answered (.ok g) := rests b (List.mem_of_getElem? here)
  refine ⟨packed_start fun b mem => ?_, fun i keys due here => ?_, fun i keys f here => ?_,
    fun i b here => ?_, assigned⟩
  · obtain ⟨g, answered⟩ := rests b mem
    rw [Batch.isGathering, answered]
  · obtain ⟨g, answered⟩ := stages here
    cases answered
  · obtain ⟨g, answered⟩ := stages here
    cases answered
  · obtain ⟨g, answered⟩ := stages here
    rw [answered]
    simp

/-- The calls of lookups that start together, at a loader at rest, are the blocks of the new keys. -/
theorem calls_perm_blocks {st : LoaderSettings} {h₀ : List (Event κ ν)} {l : Loader κ ν}
    {ts : List (Task κ ν)} (before : History ⟨new st, []⟩ h₀ ⟨l, ts⟩) (rests : Rests l)
    {backend : Backend κ ν σ} (unfailing : Unfailing backend) (now : Nat) (s : σ)
    {os : List (Operation κ ν)} (lookups : ∀ o ∈ os, o.isLookup) (pause : 1 ≤ l.delay ∨ os.length ≤ 1) :
    (callsOf backend now l s os).Perm
      (blocks l.capacity (freshKeys l (os.flatMap Operation.keys))) := by
  have assigned := before.dispatched.assigned
  have ready := rests.ready assigned now
  have launched := ready.launchAll unfailing os lookups pause (s, [])
  have waiting := launchAll_waiting (recording backend) before ready.calm now (s, []) os
  rw [List.nil_append] at launched
  unfold callsOf run
  dsimp only
  generalize l.launchAll (recording backend) now (s, []) os = out at launched waiting
  obtain ⟨rs, l₁, s₁⟩ := out
  dsimp only at launched waiting ⊢
  obtain ⟨packed, brings⟩ := launched
  have ended := finish_ended (recording backend) l₁.batches.length now s₁ waiting (card_busy_le l₁ rs)
  have ⟨brings', same⟩ := finish_induction (recording backend)
    (P := fun l' s' rs' => Brings l (s, []) rs' l' s' ∧
      l'.batches.map Batch.keys = l₁.batches.map Batch.keys)
    (fun p ⟨brings, same⟩ => ⟨brings.pass p unfailing,
      p.of_setStage (fun l _ _ same => (setStage_keys l _ _).trans same) same⟩)
    l₁.batches.length now s₁ waiting ⟨brings, rfl⟩
  obtain ⟨made, log, sent⟩ := brings'.made rests.answeredAt ended
  obtain ⟨bs, keys, packs⟩ := packed.keys
  rw [same, keys, List.perm_append_left_iff, packs.eq_blocks assigned.capacity_pos] at sent
  rw [log]
  exact sent.symm

/-- Lookups that start together, at a loader at rest, make the fewest calls: the keys that were neither
looked up nor primed before go to the backend in consecutive blocks, as large as a batch may be, and no way
to spread these keys over such batches makes fewer. With no delay the batch of one lookup may be sent before
the next lookup begins. -/
theorem fewest_calls {st : LoaderSettings} {h₀ : List (Event κ ν)} {l : Loader κ ν}
    {ts : List (Task κ ν)} (before : History ⟨new st, []⟩ h₀ ⟨l, ts⟩) (rests : Rests l)
    {backend : Backend κ ν σ} (unfailing : Unfailing backend) (now : Nat) (s : σ)
    {os : List (Operation κ ν)} (lookups : ∀ o ∈ os, o.isLookup) (pause : 1 ≤ st.delay ∨ os.length ≤ 1) :
    let size := max 1 st.maxBatch
    let fresh := freshKeys l (os.flatMap Operation.keys)
    let calls := callsOf backend now l s os
    l.run (recording backend) now (s, []) os =
      (let out := l.run backend now s os
       (out.1, out.2.1, out.2.2.1, out.2.2.2, calls)) ∧
    (∀ k, k ∈ fresh ↔ k ∈ os.flatMap Operation.keys ∧ ∀ e ∈ h₀, e.asked? ≠ some k) ∧
    calls.length = (fresh.length + size - 1) / size ∧
    calls.Perm (blocks size fresh) ∧
    ∀ bs : List (List κ), (∀ b ∈ bs, b.length ≤ size) → (∀ k ∈ fresh, ∃ b ∈ bs, k ∈ b) →
      calls.length ≤ bs.length := by
  intro size fresh calls
  have delay : l.delay = st.delay := before.delay
  have capacity : l.capacity = size := before.capacity
  have perm := calls_perm_blocks before rests unfailing now s lookups (delay ▸ pause)
  rw [capacity] at perm
  have count : calls.length = (blocks size fresh).length := perm.length_eq
  refine ⟨run_recording backend now l s os, fun k => ?_, ?_, perm, fun bs small spread => ?_⟩
  · rw [mem_freshKeys, before.unknown_iff]
  · rw [count, blocks_length]
  · rw [count]
    exact blocks_fewest (Nat.le_max_left 1 st.maxBatch) (freshKeys_nodup l _) small spread

end Keys

def oneKnown : Loader Nat Nat :=
  ⟨2, 1, [⟨[1], .answered (.ok double)⟩], [(1, .batch 0)]⟩

def mixed : List (Operation Nat Nat) :=
  [.loadMany [2, 1, 3, 2, 4], .load 3, .loadMany [5, 1], .load 6]

theorem fewest_calls_mixed :
    let calls := callsOf doubler 7 oneKnown [] mixed
    calls.length = 3 ∧ calls.Perm [[2, 3], [4, 5], [6]] ∧
    ∀ bs : List (List Nat), (∀ b ∈ bs, b.length ≤ 2) → (∀ k ∈ [2, 3, 4, 5, 6], ∃ b ∈ bs, k ∈ b) →
      3 ≤ bs.length := by
  have start : History ⟨new ⟨1, 2⟩, []⟩ [] (⟨new ⟨1, 2⟩, []⟩ : Traffic Nat Nat) := .nil
  have before : History ⟨new ⟨1, 2⟩, []⟩
      [.drew 0 1 (.batch 0), .sent 0 [1], .answered 0 [1] (.ok double)]
      (⟨oneKnown, [⟨.load 1, .running (.loading 1 (.batch 0))⟩]⟩ : Traffic Nat Nat) :=
    ((start.snoc (.load 1 (.inl rfl))).snoc (.send rfl)).snoc (.answer (.ok double) rfl rfl)
  have rests : Rests oneKnown := by simp [Rests, oneKnown]
  have unfailing : Unfailing doubler := fun _ _ => ⟨_, rfl⟩
  have lookups : ∀ o ∈ mixed, o.isLookup := by decide
  obtain ⟨_, _, count, perm, least⟩ :=
    fewest_calls before rests unfailing 7 [] lookups (.inl (Nat.le_refl 1))
  have three : (callsOf doubler 7 oneKnown [] mixed).length = 3 := count
  exact ⟨three, perm, fun bs small spread => three ▸ least bs small spread⟩

end InfraGraph.Loader

import InfraGraph.Proofs.Loader.Interleaving
import Mathlib.Logic.Function.Basic

/-!
A loader as a plain map. If the backend never fails and answers each key by a function, then a key stands
for the value it was last primed with, or else for what the function gives. Enqueuing, delays, calls and
answers change none of this, and a ticket keeps the value its key stood for when the ticket was drawn.
-/

namespace InfraGraph

variable {κ ν : Type}

def Ticket.value (f : κ → Option ν) (k : κ) : Ticket ν → Option ν
  | primed v => some v
  | batch _ => f k

namespace Loader

def Operation.keys : Operation κ ν → List κ
  | load key => [key]
  | loadMany keys => keys
  | prime _ _ => []
  | abandon key => [key]

def found (answers : List (κ × Option ν)) : List (κ × ν) :=
  answers.filterMap fun p => p.2.map (p.1, ·)

/-- What an operation comes to when its keys have the given answers. A lookup that may be dropped has its
answer too unless it was. -/
inductive Reply : Operation κ ν → List (κ × Option ν) → Outcome κ ν → Prop
  | load (k : κ) (a : Option ν) : Reply (.load k) [(k, a)] (.loaded (.ok a))
  | loadMany (answers : List (κ × Option ν)) :
      Reply (.loadMany (answers.map Prod.fst)) answers (.gathered (.ok (found answers)))
  | prime (k : κ) (v : ν) : Reply (.prime k v) [] .primed
  | kept (k : κ) (a : Option ν) : Reply (.abandon k) [(k, a)] (.loaded (.ok a))
  | dropped (k : κ) (answers : List (κ × Option ν)) : Reply (.abandon k) answers .abandoned

/-- Every answer that has come gives each key of its batch what the function gives; it may know more. -/
def Truthful (f : κ → Option ν) (l : Loader κ ν) : Prop :=
  ∀ (i : Nat) (keys : List κ) (answer : Answer κ ν),
    l.batches[i]? = some ⟨keys, .answered answer⟩ → ∃ g, answer = .ok g ∧ ∀ k ∈ keys, g k = f k

def Holds (l : Loader κ ν) (k : κ) (t : Ticket ν) : Prop :=
  ∀ i, t = .batch i → k ∈ l.keysAt i

theorem read_value {f : κ → Option ν} {l : Loader κ ν} (truthful : Truthful f l) {k : κ}
    {t : Ticket ν} (holds : Holds l k t) {answer : Except Fault (Option ν)}
    (h : l.read k t = some answer) : answer = .ok (t.value f k) := by
  cases t with
  | primed v => simpa [read, Ticket.value, eq_comm] using h
  | batch i =>
    simp only [read] at h
    split at h
    · next keys a hb =>
      obtain ⟨g, rfl, hg⟩ := truthful i keys a hb
      have hk : k ∈ keys := by simpa [keysAt_of_getElem? hb] using holds i rfl
      rw [← Option.some.inj h, Ticket.value, ← hg k hk]
      rfl
    · simp at h

theorem Truthful.setStage {f : κ → Option ν} {l : Loader κ ν} (truthful : Truthful f l) {i : Nat}
    {stage : Batch.Stage κ ν} (new : ∀ answer, stage = .answered answer →
      ∃ g, answer = .ok g ∧ ∀ k ∈ l.keysAt i, g k = f k) : Truthful f (l.setStage i stage) := by
  intro j keys answer h
  rw [setStage_getElem?] at h
  split at h
  · next eq =>
    subst eq
    obtain ⟨b, hb, same⟩ := Option.map_eq_some_iff.mp h
    rw [Batch.mk.injEq] at same
    obtain ⟨g, ha, hg⟩ := new answer same.2
    exact ⟨g, ha, fun k hk => hg k (by rw [keysAt_of_getElem? hb, same.1]; exact hk)⟩
  · exact truthful j keys answer h

theorem Truthful.enters {f : κ → Option ν} {l l' : Loader κ ν} {k : κ} {i : Nat} {t : Ticket ν}
    (truthful : Truthful f l) (e : Enters l k i t l') : Truthful f l' := by
  intro j keys answer h
  by_cases hj : j = i
  · obtain ⟨due, hi, _⟩ := e.here
    rw [hj, hi] at h
    simp at h
  · exact truthful j keys answer (e.other j hj ▸ h)

section Keys

variable [DecidableEq κ]

def view (f : κ → Option ν) (l : Loader κ ν) (k : κ) : Option ν :=
  match l.ticket? k with
  | some t => t.value f k
  | none => f k

theorem view_prime (f : κ → Option ν) (l : Loader κ ν) (k : κ) (v : ν) :
    view f (l.prime k v) = Function.update (view f l) k (some v) := by
  funext x
  by_cases h : x = k
  · subst h; simp [view, prime_ticket?, Ticket.value]
  · simp [view, prime_ticket?, h]

@[simp] theorem view_enqueue (f : κ → Option ν) (l : Loader κ ν) (k : κ) :
    view f (l.enqueue k).2 = view f l := by
  refine enqueue_induction (P := fun l' => view f l' = view f l) rfl fun i t l' fresh e => ?_
  funext x
  by_cases hx : x = k
  · subst hx
    simp [view, e.ticket?_eq, fresh, Ticket.value]
  · simp [view, e.ticket?_eq, hx]

theorem enqueue_value (f : κ → Option ν) (l : Loader κ ν) (k : κ) :
    (l.enqueue k).1.value f k = view f l k := by
  rw [← view_enqueue f l k, view, enqueue_ticket?]

theorem Truthful.enqueue {f : κ → Option ν} {l : Loader κ ν} (truthful : Truthful f l) (k : κ) :
    Truthful f (l.enqueue k).2 :=
  enqueue_induction truthful fun _ _ _ _ e => truthful.enters e

end Keys

/-- An operation that has come so far while its keys have the given answers: tickets stand for the answers
still to come, and what it found is what the answers before them give. -/
inductive Keeps (f : κ → Option ν) : Task κ ν → List (κ × Option ν) → Prop
  | enqueuing (drawn : List (κ × Ticket ν)) (rest : List κ) :
      Keeps f ⟨.loadMany (drawn.map Prod.fst ++ rest), .enqueuing drawn rest⟩
        (drawn.map fun p => (p.1, p.2.value f p.1))
  | loading {o : Operation κ ν} (k : κ) (t : Ticket ν) (single : o = .load k ∨ o = .abandon k) :
      Keeps f ⟨o, .running (.loading k t)⟩ [(k, t.value f k)]
  | gathering (past : List (κ × Option ν)) (rest : List (κ × Ticket ν)) :
      Keeps f ⟨.loadMany ((past.map Prod.fst) ++ rest.map Prod.fst),
          .running (.gathering rest (found past))⟩
        (past ++ rest.map fun p => (p.1, p.2.value f p.1))
  | finished {o : Operation κ ν} {answers : List (κ × Option ν)} {outcome : Outcome κ ν}
      (reply : Reply o answers outcome) : Keeps f ⟨o, .running (.finished outcome)⟩ answers

theorem Keeps.reply {f : κ → Option ν} {o : Operation κ ν} {outcome : Outcome κ ν}
    {answers : List (κ × Option ν)} (keeps : Keeps f ⟨o, .running (.finished outcome)⟩ answers) :
    Reply o answers outcome := by
  cases keeps with
  | finished reply => exact reply

theorem Keeps.await {f : κ → Option ν} {o : Operation κ ν} {drawn : List (κ × Ticket ν)}
    {answers : List (κ × Option ν)} (keeps : Keeps f ⟨o, .enqueuing drawn []⟩ answers) :
    Keeps f ⟨o, .running (.gathering drawn [])⟩ answers := by
  cases keeps with
  | enqueuing drawn rest => simpa [found] using Keeps.gathering (f := f) [] drawn

theorem Keeps.finish {f : κ → Option ν} {o : Operation κ ν} {pairs : List (κ × ν)}
    {answers : List (κ × Option ν)} (keeps : Keeps f ⟨o, .running (.gathering [] pairs)⟩ answers) :
    Keeps f ⟨o, .running (.finished (.gathered (.ok pairs)))⟩ answers := by
  generalize same : (⟨o, .running (.gathering [] pairs)⟩ : Task κ ν) = task at keeps
  cases keeps with
  | gathering past rest =>
    simp only [Task.mk.injEq, Phase.running.injEq, Running.gathering.injEq] at same
    obtain ⟨rfl, rfl, rfl⟩ := same
    simpa using Keeps.finished (.loadMany past)
  | _ => simp at same

theorem Keeps.take {f : κ → Option ν} {o : Operation κ ν} {r : Running κ ν} {k : κ} {t : Ticket ν}
    {answers : List (κ × Option ν)} (keeps : Keeps f ⟨o, .running r⟩ answers)
    (next : r.next? = some (k, t)) :
    Keeps f ⟨o, .running (r.take (.ok (t.value f k)))⟩ answers := by
  generalize same : (⟨o, .running r⟩ : Task κ ν) = task at keeps
  cases keeps with
  | enqueuing drawn rest => simp at same
  | loading k' t' single =>
    simp only [Task.mk.injEq, Phase.running.injEq] at same
    obtain ⟨rfl, rfl⟩ := same
    obtain ⟨rfl, rfl⟩ : k' = k ∧ t' = t := by simpa [Running.next?] using next
    refine .finished ?_
    rcases single with rfl | rfl
    · exact .load k' _
    · exact .kept k' _
  | gathering past rest =>
    simp only [Task.mk.injEq, Phase.running.injEq] at same
    obtain ⟨rfl, rfl⟩ := same
    obtain ⟨rest, rfl⟩ : ∃ rest', rest = (k, t) :: rest' := by
      cases rest with
      | nil => simp [Running.next?] at next
      | cons p rest => exact ⟨rest, by rw [Option.some.inj next]⟩
    have more := Keeps.gathering (f := f) (past ++ [(k, t.value f k)]) rest
    cases hv : t.value f k with
    | none => simpa [Running.take, hv, found] using more
    | some v => simpa [Running.take, hv, found] using more
  | finished _ =>
    simp only [Task.mk.injEq, Phase.running.injEq] at same
    obtain ⟨rfl, rfl⟩ := same
    simp [Running.next?] at next

end Loader

end InfraGraph

import InfraGraph.Loader.Schedule
import InfraGraph.Proofs.Loader.Assignment

/-!
Operations on a loader in any order. Each operation goes in small steps: it puts its keys into the loader
one after another, then it takes the answers of its tickets one after another. Between two steps of one
operation anything else may happen: other operations begin, go on and end, values are primed, delays
begin, batches are sent and answered, and an operation may be dropped. Delays may end at any time, so
every clock is among the histories.
-/

namespace InfraGraph.Loader

variable {κ ν : Type}

def Running.next? : Running κ ν → Option (κ × Ticket ν)
  | finished _ => none
  | loading key ticket => some (key, ticket)
  | gathering rest _ => rest.head?

def Running.take : Running κ ν → Except Fault (Option ν) → Running κ ν
  | loading _ _, answer => finished (.loaded answer)
  | gathering (_ :: _) _, .error f => finished (.gathered (.error f))
  | gathering (_ :: rest) found, .ok none => gathering rest found
  | gathering ((key, _) :: rest) found, .ok (some v) => gathering rest (found ++ [(key, v)])
  | r, _ => r

/-- How far an operation has come. A `loadMany` puts all its keys into the loader before it awaits any. -/
inductive Phase (κ ν : Type)
  | enqueuing (drawn : List (κ × Ticket ν)) (rest : List κ)
  | running (state : Running κ ν)

structure Task (κ ν : Type) where
  operation : Operation κ ν
  phase : Phase κ ν

/-- A loader and all operations that were begun on it, the oldest first. -/
structure Traffic (κ ν : Type) where
  loader : Loader κ ν
  tasks : List (Task κ ν)

/-- What can happen. Tasks and batches go by their numbers. -/
inductive Event (κ ν : Type)
  | began (task : Nat)
  | drew (task : Nat) (key : κ) (ticket : Ticket ν)
  | turned (task : Nat)
  | took (task : Nat) (key : κ) (ticket : Ticket ν) (answer : Except Fault (Option ν))
  | dropped (task : Nat)
  | primed (key : κ) (value : ν)
  | started (batch : Nat)
  | sent (batch : Nat) (keys : List κ)
  | answered (batch : Nat) (keys : List κ) (answer : Answer κ ν)

def Event.isQuiet : Event κ ν → Bool
  | began _ => true
  | turned _ => true
  | took _ _ _ _ => true
  | dropped _ => true
  | _ => false

theorem concat_getElem? {α : Type} {xs : List α} {a b : α} {i : Nat}
    (h : (xs ++ [a])[i]? = some b) : i = xs.length ∧ a = b ∨ i ≠ xs.length ∧ xs[i]? = some b := by
  by_cases hi : i = xs.length
  · subst hi
    exact .inl ⟨rfl, by simpa using h⟩
  · exact .inr ⟨hi, by rwa [getElem?_concat_of_ne _ _ hi] at h⟩

theorem set_getElem? {α : Type} {xs : List α} {a b : α} {i j : Nat}
    (h : (xs.set j a)[i]? = some b) : j = i ∧ a = b ∨ j ≠ i ∧ xs[i]? = some b := by
  rw [List.getElem?_set] at h
  split at h
  · next eq =>
    split at h
    · exact .inl ⟨eq, Option.some.inj h⟩
    · simp at h
  · next ne => exact .inr ⟨ne, h⟩

section Steps

variable [DecidableEq κ]

inductive Step : Traffic κ ν → Event κ ν → Traffic κ ν → Prop
  /-- A single lookup begins by drawing a ticket; it may be meant to be dropped. -/
  | load {l : Loader κ ν} {ts : List (Task κ ν)} {o : Operation κ ν} (k : κ)
      (single : o = .load k ∨ o = .abandon k) :
      Step ⟨l, ts⟩ (.drew ts.length k (l.enqueue k).1)
        ⟨(l.enqueue k).2, ts ++ [⟨o, .running (.loading k (l.enqueue k).1)⟩]⟩
  | loadMany {l : Loader κ ν} {ts : List (Task κ ν)} (ks : List κ) :
      Step ⟨l, ts⟩ (.began ts.length) ⟨l, ts ++ [⟨.loadMany ks, .enqueuing [] ks⟩]⟩
  | enqueue {l : Loader κ ν} {ts : List (Task κ ν)} {i : Nat} {o : Operation κ ν}
      {drawn : List (κ × Ticket ν)} {k : κ} {ks : List κ}
      (here : ts[i]? = some ⟨o, .enqueuing drawn (k :: ks)⟩) :
      Step ⟨l, ts⟩ (.drew i k (l.enqueue k).1)
        ⟨(l.enqueue k).2, ts.set i ⟨o, .enqueuing (drawn ++ [(k, (l.enqueue k).1)]) ks⟩⟩
  | await {l : Loader κ ν} {ts : List (Task κ ν)} {i : Nat} {o : Operation κ ν}
      {drawn : List (κ × Ticket ν)} (here : ts[i]? = some ⟨o, .enqueuing drawn []⟩) :
      Step ⟨l, ts⟩ (.turned i) ⟨l, ts.set i ⟨o, .running (.gathering drawn [])⟩⟩
  | take {l : Loader κ ν} {ts : List (Task κ ν)} {i : Nat} {o : Operation κ ν} {r : Running κ ν}
      {k : κ} {t : Ticket ν} {answer : Except Fault (Option ν)}
      (here : ts[i]? = some ⟨o, .running r⟩) (next : r.next? = some (k, t))
      (read : l.read k t = some answer) :
      Step ⟨l, ts⟩ (.took i k t answer) ⟨l, ts.set i ⟨o, .running (r.take answer)⟩⟩
  | finish {l : Loader κ ν} {ts : List (Task κ ν)} {i : Nat} {o : Operation κ ν}
      {found : List (κ × ν)} (here : ts[i]? = some ⟨o, .running (.gathering [] found)⟩) :
      Step ⟨l, ts⟩ (.turned i)
        ⟨l, ts.set i ⟨o, .running (.finished (.gathered (.ok found)))⟩⟩
  | drop {l : Loader κ ν} {ts : List (Task κ ν)} {i : Nat} {o : Operation κ ν} {p : Phase κ ν}
      (here : ts[i]? = some ⟨o, p⟩) (unfinished : ∀ outcome, p ≠ .running (.finished outcome)) :
      Step ⟨l, ts⟩ (.dropped i) ⟨l, ts.set i ⟨o, .running (.finished .abandoned)⟩⟩
  | prime {l : Loader κ ν} {ts : List (Task κ ν)} (k : κ) (v : ν) :
      Step ⟨l, ts⟩ (.primed k v)
        ⟨l.prime k v, ts ++ [⟨.prime k v, .running (.finished .primed)⟩]⟩
  | start {l : Loader κ ν} {ts : List (Task κ ν)} {i : Nat} {keys : List κ} (now : Nat)
      (here : l.batches[i]? = some ⟨keys, .gathering none⟩) :
      Step ⟨l, ts⟩ (.started i) ⟨l.start i now, ts⟩
  | send {l l' : Loader κ ν} {ts : List (Task κ ν)} {i : Nat} {keys : List κ}
      (closed : l.close i = some (keys, l')) :
      Step ⟨l, ts⟩ (.sent i keys) ⟨l', ts⟩
  | answer {l l' : Loader κ ν} {ts : List (Task κ ν)} {i : Nat} {keys : List κ}
      (answer : Answer κ ν) (here : l.batches[i]? = some ⟨keys, .sent⟩)
      (settled : l.settle i answer = some l') :
      Step ⟨l, ts⟩ (.answered i keys answer) ⟨l', ts⟩

inductive Change : Loader κ ν → Event κ ν → Loader κ ν → Prop
  | quiet {l : Loader κ ν} {e : Event κ ν} (h : e.isQuiet) : Change l e l
  | enqueue {l : Loader κ ν} (i : Nat) (k : κ) :
      Change l (.drew i k (l.enqueue k).1) (l.enqueue k).2
  | prime {l : Loader κ ν} (k : κ) (v : ν) : Change l (.primed k v) (l.prime k v)
  | start {l : Loader κ ν} {i : Nat} {keys : List κ} (now : Nat)
      (h : l.batches[i]? = some ⟨keys, .gathering none⟩) :
      Change l (.started i) (l.setStage i (.gathering (some (now + l.delay))))
  | send {l : Loader κ ν} {i : Nat} {keys : List κ} {due : Option Nat}
      (h : l.batches[i]? = some ⟨keys, .gathering due⟩) :
      Change l (.sent i keys) (l.setStage i .sent)
  | answer {l : Loader κ ν} {i : Nat} {keys : List κ} (answer : Answer κ ν)
      (h : l.batches[i]? = some ⟨keys, .sent⟩) :
      Change l (.answered i keys answer) (l.setStage i (.answered answer))

theorem Step.change {w w' : Traffic κ ν} {e : Event κ ν} (step : Step w e w') :
    Change w.loader e w'.loader := by
  cases step with
  | load k _ => exact .enqueue _ k
  | loadMany _ => exact .quiet rfl
  | enqueue _ => exact .enqueue _ _
  | await _ => exact .quiet rfl
  | take _ _ _ => exact .quiet rfl
  | finish _ => exact .quiet rfl
  | drop _ _ => exact .quiet rfl
  | prime k v => exact .prime k v
  | start now here => exact .start now here
  | send closed =>
    obtain ⟨due, here, rfl⟩ := close_eq_some.mp closed
    exact .send here
  | answer answer here settled =>
    obtain ⟨_, _, rfl⟩ := settle_eq_some.mp settled
    exact .answer answer here

inductive Progress (l : Loader κ ν) (i : Nat) : Event κ ν → Option (Task κ ν) → Task κ ν → Prop
  | load {o : Operation κ ν} (k : κ) (single : o = .load k ∨ o = .abandon k) :
      Progress l i (.drew i k (l.enqueue k).1) none ⟨o, .running (.loading k (l.enqueue k).1)⟩
  | loadMany (ks : List κ) : Progress l i (.began i) none ⟨.loadMany ks, .enqueuing [] ks⟩
  | enqueue {o : Operation κ ν} {drawn : List (κ × Ticket ν)} {k : κ} {ks : List κ} :
      Progress l i (.drew i k (l.enqueue k).1) (some ⟨o, .enqueuing drawn (k :: ks)⟩)
        ⟨o, .enqueuing (drawn ++ [(k, (l.enqueue k).1)]) ks⟩
  | await {o : Operation κ ν} {drawn : List (κ × Ticket ν)} :
      Progress l i (.turned i) (some ⟨o, .enqueuing drawn []⟩) ⟨o, .running (.gathering drawn [])⟩
  | take {o : Operation κ ν} {r : Running κ ν} {k : κ} {t : Ticket ν}
      {answer : Except Fault (Option ν)} (next : r.next? = some (k, t))
      (read : l.read k t = some answer) :
      Progress l i (.took i k t answer) (some ⟨o, .running r⟩) ⟨o, .running (r.take answer)⟩
  | finish {o : Operation κ ν} {found : List (κ × ν)} :
      Progress l i (.turned i) (some ⟨o, .running (.gathering [] found)⟩)
        ⟨o, .running (.finished (.gathered (.ok found)))⟩
  | drop {o : Operation κ ν} {p : Phase κ ν} :
      Progress l i (.dropped i) (some ⟨o, p⟩) ⟨o, .running (.finished .abandoned)⟩
  | prime (k : κ) (v : ν) :
      Progress l i (.primed k v) none ⟨.prime k v, .running (.finished .primed)⟩

theorem progress_concat {l : Loader κ ν} {ts : List (Task κ ν)} {e : Event κ ν} {new : Task κ ν}
    (own : Progress l ts.length e none new) (alone : ∀ n k t, e = .drew n k t → n = ts.length)
    {i : Nat} {task : Task κ ν} (h : (ts ++ [new])[i]? = some task) :
    ts[i]? = some task ∧ (∀ k t, e ≠ .drew i k t) ∨ Progress l i e ts[i]? task := by
  cases concat_getElem? h with
  | inl moved =>
    obtain ⟨rfl, rfl⟩ := moved
    exact .inr (by simpa using own)
  | inr other => exact .inl ⟨other.2, fun k t same => other.1 (alone i k t same)⟩

theorem progress_set {l : Loader κ ν} {ts : List (Task κ ν)} {e : Event κ ν} {j : Nat}
    {before after : Task κ ν} (here : ts[j]? = some before) (own : Progress l j e (some before) after)
    (alone : ∀ n k t, e = .drew n k t → n = j) {i : Nat} {task : Task κ ν}
    (h : (ts.set j after)[i]? = some task) :
    ts[i]? = some task ∧ (∀ k t, e ≠ .drew i k t) ∨ Progress l i e ts[i]? task := by
  cases set_getElem? h with
  | inl moved =>
    obtain ⟨rfl, rfl⟩ := moved
    exact .inr (here ▸ own)
  | inr other => exact .inl ⟨other.2, fun k t same => other.1 (alone i k t same).symm⟩

theorem Step.progress {w w' : Traffic κ ν} {e : Event κ ν} (step : Step w e w') {i : Nat}
    {task : Task κ ν} (h : w'.tasks[i]? = some task) :
    w.tasks[i]? = some task ∧ (∀ k t, e ≠ .drew i k t) ∨
      Progress w.loader i e w.tasks[i]? task := by
  cases step with
  | load k single => exact progress_concat (.load k single) (by rintro _ _ _ ⟨⟩; rfl) h
  | loadMany ks => exact progress_concat (.loadMany ks) (by simp) h
  | enqueue here => exact progress_set here .enqueue (by rintro _ _ _ ⟨⟩; rfl) h
  | await here => exact progress_set here .await (by simp) h
  | take here next read => exact progress_set here (.take next read) (by simp) h
  | finish here => exact progress_set here .finish (by simp) h
  | drop here _ => exact progress_set here .drop (by simp) h
  | prime k v => exact progress_concat (.prime k v) (by simp) h
  | start _ _ => exact .inl ⟨h, by simp⟩
  | send _ => exact .inl ⟨h, by simp⟩
  | answer _ _ _ => exact .inl ⟨h, by simp⟩

/-- What happened from one state of the traffic to another, in order. -/
inductive History (w : Traffic κ ν) : List (Event κ ν) → Traffic κ ν → Prop
  | nil : History w [] w
  | snoc {h : List (Event κ ν)} {w' w'' : Traffic κ ν} {e : Event κ ν} :
      History w h w' → Step w' e w'' → History w (h ++ [e]) w''

theorem History.append {w w' w'' : Traffic κ ν} {h h' : List (Event κ ν)}
    (first : History w h w') (second : History w' h' w'') : History w (h ++ h') w'' := by
  induction second with
  | nil => simpa using first
  | snoc _ step ih => rw [← List.append_assoc]; exact .snoc ih step

theorem History.single {w w' : Traffic κ ν} {e : Event κ ν} (step : Step w e w') :
    History w [e] w' :=
  .snoc .nil step

end Steps

def calls : List (Event κ ν) → List (Nat × List κ)
  | [] => []
  | .sent i keys :: h => (i, keys) :: calls h
  | _ :: h => calls h

@[simp] theorem calls_append (h h' : List (Event κ ν)) : calls (h ++ h') = calls h ++ calls h' := by
  induction h with
  | nil => rfl
  | cons e h ih => cases e <;> simp [calls, ih]

end InfraGraph.Loader

import InfraGraph.Loader.Basic

/-!
Operations on a loader that run together under one clock. They start in their order and each goes on
until it has to wait. When all wait, the clock moves to the next end of a delay, and the operations
are asked again in their order. All keys are enqueued when an operation starts, so no batch is opened
later, and after each move of the clock there is one batch less that gathers or is waited for.
-/

namespace InfraGraph.Loader

inductive Operation (κ ν : Type)
  | load (key : κ)
  | loadMany (keys : List κ)
  | prime (key : κ) (value : ν)
  | abandon (key : κ)

/-- What an operation comes to. An abandoned load was dropped because it had to wait. -/
inductive Outcome (κ ν : Type)
  | loaded (result : Except Fault (Option ν))
  | gathered (result : Except Fault (List (κ × ν)))
  | primed
  | abandoned

inductive Running (κ ν : Type)
  | finished (outcome : Outcome κ ν)
  | loading (key : κ) (ticket : Ticket ν)
  | gathering (rest : List (κ × Ticket ν)) (found : List (κ × ν))

variable {κ ν σ : Type}

def gather (backend : Backend κ ν σ) (now : Nat) :
    List (κ × Ticket ν) → List (κ × ν) → Loader κ ν → σ → Running κ ν × Loader κ ν × σ
  | [], found, l, s => (.finished (.gathered (.ok found)), l, s)
  | (key, ticket) :: rest, found, l, s =>
      match l.await backend now key ticket s with
      | (none, l, s) => (.gathering ((key, ticket) :: rest) found, l, s)
      | (some (.error f), l, s) => (.finished (.gathered (.error f)), l, s)
      | (some (.ok none), l, s) => gather backend now rest found l s
      | (some (.ok (some v)), l, s) => gather backend now rest (found ++ [(key, v)]) l s

namespace Running

def waitsFor : Running κ ν → Option (Ticket ν)
  | finished _ => none
  | loading _ ticket => some ticket
  | gathering rest _ => rest.head?.map (·.2)

def poll (backend : Backend κ ν σ) (now : Nat) (l : Loader κ ν) (s : σ) :
    Running κ ν → Running κ ν × Loader κ ν × σ
  | finished outcome => (finished outcome, l, s)
  | loading key ticket =>
      match l.await backend now key ticket s with
      | (none, l, s) => (loading key ticket, l, s)
      | (some result, l, s) => (finished (.loaded result), l, s)
  | gathering rest found => gather backend now rest found l s

def pollAll (backend : Backend κ ν σ) (now : Nat) (l : Loader κ ν) (s : σ) :
    List (Running κ ν) → List (Running κ ν) × Loader κ ν × σ
  | [] => ([], l, s)
  | r :: rs =>
      let (r, l, s) := r.poll backend now l s
      let (rs, l, s) := pollAll backend now l s rs
      (r :: rs, l, s)

end Running

def launch [BEq κ] (backend : Backend κ ν σ) (now : Nat) (l : Loader κ ν) (s : σ) :
    Operation κ ν → Running κ ν × Loader κ ν × σ
  | .load key =>
      let (ticket, l) := l.enqueue key
      (Running.loading key ticket).poll backend now l s
  | .loadMany keys =>
      let (tickets, l) := l.enqueueAll keys
      (Running.gathering tickets []).poll backend now l s
  | .prime key value => (.finished .primed, l.prime key value, s)
  | .abandon key =>
      let (ticket, l) := l.enqueue key
      match l.await backend now key ticket s with
      | (none, l, s) => (.finished .abandoned, l, s)
      | (some result, l, s) => (.finished (.loaded result), l, s)

def launchAll [BEq κ] (backend : Backend κ ν σ) (now : Nat) (l : Loader κ ν) (s : σ) :
    List (Operation κ ν) → List (Running κ ν) × Loader κ ν × σ
  | [] => ([], l, s)
  | o :: os =>
      let (r, l, s) := l.launch backend now s o
      let (rs, l, s) := launchAll backend now l s os
      (r :: rs, l, s)

def nextDue (l : Loader κ ν) (rs : List (Running κ ν)) : Option Nat :=
  (rs.filterMap fun r => r.waitsFor.bind l.due?).min?

def finish (backend : Backend κ ν σ) :
    (fuel now : Nat) → Loader κ ν → σ → List (Running κ ν) → List (Running κ ν) × Nat × Loader κ ν × σ
  | 0, now, l, s, rs => (rs, now, l, s)
  | fuel + 1, now, l, s, rs =>
      match l.nextDue rs with
      | none => (rs, now, l, s)
      | some due =>
          let (rs, l, s) := Running.pollAll backend (max now due) l s rs
          finish backend fuel (max now due) l s rs

def Running.outcome : Running κ ν → Outcome κ ν
  | .finished outcome => outcome
  | .loading _ _ => .abandoned
  | .gathering _ _ => .abandoned

def run [BEq κ] (backend : Backend κ ν σ) (now : Nat) (l : Loader κ ν) (s : σ)
    (os : List (Operation κ ν)) : List (Outcome κ ν) × Nat × Loader κ ν × σ :=
  let (rs, l, s) := l.launchAll backend now s os
  let (rs, now, l, s) := finish backend l.batches.length now l s rs
  (rs.map Running.outcome, now, l, s)

end InfraGraph.Loader

import InfraGraph.Fault
import InfraGraph.Settings

/-!
A loader gathers single lookups into batches. A key that is asked for joins the newest batch while
that batch is gathering and has room, else it opens a new one; from then on the key belongs to that
batch, whatever becomes of it. A batch is sent once, with all the keys it gathered, and its answer,
good or bad, is kept for every lookup of its keys. Priming puts a known value in front of a key.
-/

namespace InfraGraph

/-- What a backend says to a batch: a value for each key it knows, or one fault for all. -/
abbrev Answer (κ ν : Type) := Except Fault (κ → Option ν)

/-- A batch gathers keys until it is sent. Its delay runs from when it is first awaited. -/
inductive Batch.Stage (κ ν : Type)
  | gathering (due : Option Nat)
  | sent
  | answered (answer : Answer κ ν)

structure Batch (κ ν : Type) where
  keys : List κ
  stage : Batch.Stage κ ν

namespace Batch

variable {κ ν : Type}

def isGathering (b : Batch κ ν) : Bool :=
  match b.stage with
  | .gathering _ => true
  | _ => false

def hasRoom (capacity : Nat) (b : Batch κ ν) : Bool :=
  b.isGathering && b.keys.length < capacity

end Batch

inductive Ticket (ν : Type)
  | primed (value : ν)
  | batch (index : Nat)

/-- Batches are numbered from the oldest; of several tickets of a key the first in the list counts. -/
structure Loader (κ ν : Type) where
  capacity : Nat
  delay : Nat
  batches : List (Batch κ ν)
  tickets : List (κ × Ticket ν)

namespace Loader

variable {κ ν : Type}

def new (s : LoaderSettings) : Loader κ ν :=
  ⟨max 1 s.maxBatch, s.delay, [], []⟩

def newest (l : Loader κ ν) : Option (Batch κ ν) :=
  l.batches.getLast?

section Keys

variable [BEq κ]

def ticket? (l : Loader κ ν) (key : κ) : Option (Ticket ν) :=
  l.tickets.lookup key

def prime (l : Loader κ ν) (key : κ) (value : ν) : Loader κ ν :=
  { l with tickets := (key, .primed value) :: l.tickets }

def openBatch (l : Loader κ ν) (key : κ) : Ticket ν × Loader κ ν :=
  let ticket := .batch l.batches.length
  (ticket, { l with
    batches := l.batches ++ [⟨[key], .gathering none⟩]
    tickets := (key, ticket) :: l.tickets })

def join (l : Loader κ ν) (key : κ) : Ticket ν × Loader κ ν :=
  match l.newest with
  | some b =>
      if b.hasRoom l.capacity then
        let ticket := .batch (l.batches.length - 1)
        (ticket, { l with
          batches := l.batches.dropLast ++ [{ b with keys := b.keys ++ [key] }]
          tickets := (key, ticket) :: l.tickets })
      else l.openBatch key
  | none => l.openBatch key

def enqueue (l : Loader κ ν) (key : κ) : Ticket ν × Loader κ ν :=
  match l.ticket? key with
  | some ticket => (ticket, l)
  | none => l.join key

def enqueueAll (l : Loader κ ν) : List κ → List (κ × Ticket ν) × Loader κ ν
  | [] => ([], l)
  | key :: keys =>
      let (ticket, l) := l.enqueue key
      let (more, l) := l.enqueueAll keys
      ((key, ticket) :: more, l)

end Keys

def setStage (l : Loader κ ν) (index : Nat) (stage : Batch.Stage κ ν) : Loader κ ν :=
  { l with batches := l.batches.modify index fun b => { b with stage := stage } }

def start (l : Loader κ ν) (index now : Nat) : Loader κ ν :=
  l.setStage index (.gathering (some (now + l.delay)))

def close (l : Loader κ ν) (index : Nat) : Option (List κ × Loader κ ν) :=
  match l.batches[index]? with
  | some ⟨keys, .gathering _⟩ => some (keys, l.setStage index .sent)
  | _ => none

def settle (l : Loader κ ν) (index : Nat) (answer : Answer κ ν) : Option (Loader κ ν) :=
  match l.batches[index]? with
  | some ⟨_, .sent⟩ => some (l.setStage index (.answered answer))
  | _ => none

def read (l : Loader κ ν) (key : κ) : Ticket ν → Option (Except Fault (Option ν))
  | .primed value => some (.ok (some value))
  | .batch index =>
      match l.batches[index]? with
      | some ⟨_, .answered answer⟩ => some (answer.map (· key))
      | _ => none

abbrev Backend (κ ν σ : Type) := List κ → σ → Answer κ ν × σ

def dispatch {σ : Type} (backend : Backend κ ν σ) (index : Nat) (l : Loader κ ν) (s : σ) :
    Loader κ ν × σ :=
  match l.close index with
  | none => (l, s)
  | some (keys, l) =>
      let (answer, s) := backend keys s
      ((l.settle index answer).getD l, s)

/-- Someone awaits a ticket at the given time. The first to await a batch starts its delay; once the
delay is over, whoever awaits the batch sends it. -/
def await {σ : Type} (backend : Backend κ ν σ) (now : Nat) (key : κ) (ticket : Ticket ν)
    (l : Loader κ ν) (s : σ) : Option (Except Fault (Option ν)) × Loader κ ν × σ :=
  match ticket with
  | .primed value => (some (.ok (some value)), l, s)
  | .batch index =>
      match l.batches[index]? with
      | some ⟨_, .gathering none⟩ => (none, l.start index now, s)
      | some ⟨_, .gathering (some due)⟩ =>
          if due ≤ now then
            let (l, s) := l.dispatch backend index s
            (l.read key ticket, l, s)
          else (none, l, s)
      | _ => (l.read key ticket, l, s)

/-- When an awaited ticket is worth asking for again: at the end of its delay, or at once if its answer
has come since. -/
def due? (l : Loader κ ν) : Ticket ν → Option Nat
  | .primed _ => some 0
  | .batch index =>
      match l.batches[index]? with
      | some ⟨_, .gathering due⟩ => due
      | some ⟨_, .answered _⟩ => some 0
      | _ => none

end Loader

end InfraGraph

import InfraGraph.Fault

/-!
A relay carries the events of a source to one subscriber through a bounded channel. Its producer takes
one event at a time and holds it until the channel has room. It stops after handing on the first fault,
at the end of the source, or when the subscriber has gone. A subscriber that has gone receives nothing
more, and what the channel still held is lost.
-/

namespace InfraGraph.Feed

abbrev Item (α : Type) := Except Fault α

/-- Whether a source ends after its items, or stays silent for ever. -/
inductive Ending
  | ends
  | silent
  deriving DecidableEq, Repr

inductive Producer (α : Type)
  | choosing
  | holding (item : Item α)
  | finished

structure Relay (α : Type) where
  capacity : Nat
  source : List (Item α)
  ending : Ending
  producer : Producer α
  channel : List (Item α)
  received : List (Item α)
  subscribed : Bool

inductive Move
  | take
  | hand
  | notice
  | receive
  | leave
  deriving DecidableEq, Repr

namespace Relay

variable {α : Type}

def new (buffer : Nat) (source : List (Item α)) (ending : Ending) : Relay α :=
  ⟨max 1 buffer, source, ending, .choosing, [], [], true⟩

def isFinished (r : Relay α) : Bool :=
  match r.producer with
  | .finished => true
  | _ => false

def take? (r : Relay α) : Option (Relay α) :=
  match r.producer, r.source, r.ending with
  | .choosing, item :: rest, _ => some { r with source := rest, producer := .holding item }
  | .choosing, [], .ends => some { r with producer := .finished }
  | _, _, _ => none

/-- The producer puts the item it holds into the channel; a fault is the last it hands on. -/
def hand? (r : Relay α) : Option (Relay α) :=
  match r.producer with
  | .holding item =>
      if r.subscribed ∧ r.channel.length < r.capacity then
        some { r with
          channel := r.channel ++ [item]
          producer := match item with
            | .ok _ => .choosing
            | .error _ => .finished }
      else none
  | _ => none

def notice? (r : Relay α) : Option (Relay α) :=
  if r.subscribed ∨ r.isFinished then none else some { r with producer := .finished }

def receive? (r : Relay α) : Option (Relay α) :=
  match r.channel with
  | item :: rest =>
      if r.subscribed then some { r with channel := rest, received := r.received ++ [item] }
      else none
  | [] => none

def leave? (r : Relay α) : Option (Relay α) :=
  if r.subscribed then some { r with subscribed := false, channel := [] } else none

def move? (r : Relay α) : Move → Option (Relay α)
  | .take => r.take?
  | .hand => r.hand?
  | .notice => r.notice?
  | .receive => r.receive?
  | .leave => r.leave?

def isClosed (r : Relay α) : Bool :=
  r.isFinished && r.channel.isEmpty

def firstMove? (r : Relay α) : List Move → Option (Relay α)
  | [] => none
  | m :: ms =>
      match r.move? m with
      | some r => some r
      | none => r.firstMove? ms

def produce : Nat → Relay α → Relay α
  | 0, r => r
  | fuel + 1, r =>
      match r.firstMove? [.notice, .hand, .take] with
      | none => r
      | some r => produce fuel r

/-- Each item is taken once and handed on once, and one move ends the work. -/
def work (r : Relay α) : Relay α :=
  r.produce (2 * r.source.length + 2)

def consume : Nat → Relay α → Relay α
  | 0, r => r
  | count + 1, r =>
      match r.work.receive? with
      | none => r.work
      | some r => consume count r

def subscribe (r : Relay α) (limit : Option Nat) : Relay α :=
  r.consume (limit.getD (r.source.length + 1))

def sawEnd (r : Relay α) (limit : Option Nat) : Bool :=
  r.isClosed && limit.all (r.received.length < ·)

def drop (r : Relay α) : Relay α :=
  ((r.leave?).getD r).work

end Relay

end InfraGraph.Feed

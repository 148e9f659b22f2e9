import InfraGraph.Feed.Relay

/-!
What a relay delivers. Producer and subscriber take their moves in any order, and the source may come up
with its events at any time in between. Wherever they stand, every event that was taken from the source
is received, in the channel, held by the producer, or lost since the subscriber has gone. So what is
received comes in the order of the source, and none of it is missing up to the first fault.
-/

namespace InfraGraph.Feed

variable {α : Type}

/-- The events that a source has for its subscriber: all up to the first fault, and that fault. -/
def upToFault : List (Item α) → List (Item α)
  | [] => []
  | .ok a :: rest => .ok a :: upToFault rest
  | .error f :: _ => [.error f]

def Calm (items : List (Item α)) : Prop :=
  ∀ f, .error f ∉ items

theorem Calm.append {items more : List (Item α)} (h : Calm items) (h' : Calm more) :
    Calm (items ++ more) :=
  fun f mem => (List.mem_append.mp mem).elim (h f) (h' f)

theorem calm_ok (a : α) : Calm [.ok a] := by
  simp [Calm]

theorem upToFault_append {items : List (Item α)} (calm : Calm items) (more : List (Item α)) :
    upToFault (items ++ more) = items ++ upToFault more := by
  induction items with
  | nil => rfl
  | cons item items ih =>
    cases item with
    | error f => exact absurd List.mem_cons_self (calm f)
    | ok a =>
      have rest := ih fun f mem => calm f (List.mem_cons_of_mem _ mem)
      simp only [List.cons_append, upToFault, rest]

theorem upToFault_of_calm {items : List (Item α)} (calm : Calm items) : upToFault items = items := by
  simpa [upToFault] using upToFault_append calm []

theorem upToFault_of_fault {items : List (Item α)} {f : Fault} (mem : .error f ∈ items)
    (more : List (Item α)) : upToFault (items ++ more) = upToFault items := by
  induction items with
  | nil => simp at mem
  | cons item items ih =>
    cases item with
    | error g => rfl
    | ok a =>
      have mem : .error f ∈ items := by simpa using mem
      simp only [List.cons_append, upToFault, ih mem]

theorem upToFault_extends (items more : List (Item α)) :
    upToFault items <+: upToFault (items ++ more) := by
  induction items with
  | nil => exact List.nil_prefix
  | cons item items ih =>
    cases item with
    | error f => exact List.prefix_rfl
    | ok a => exact (List.prefix_cons_inj _).mpr ih

theorem mem_of_mem_upToFault {items : List (Item α)} {item : Item α} (mem : item ∈ upToFault items) :
    item ∈ items := by
  induction items with
  | nil => exact mem
  | cons first items ih =>
    cases first with
    | error f =>
      rw [List.mem_singleton.mp mem]
      exact List.mem_cons_self
    | ok a =>
      rcases List.mem_cons.mp mem with rfl | later
      · exact List.mem_cons_self
      · exact List.mem_cons_of_mem _ (ih later)

namespace Producer

def held : Producer α → List (Item α)
  | .holding item => [item]
  | _ => []

def spare : Producer α → Nat
  | .finished => 1
  | _ => 0

theorem held_add_spare (p : Producer α) : p.held.length + p.spare ≤ 1 := by
  cases p <;> simp [held, spare]

end Producer

namespace Relay

@[simp] theorem isFinished_iff {r : Relay α} : r.isFinished ↔ r.producer = .finished := by
  unfold isFinished
  split <;> simp_all

inductive Step (r : Relay α) : Move → Relay α → Prop
  | take (item : Item α) (rest : List (Item α)) (choosing : r.producer = .choosing)
      (next : r.source = item :: rest) :
      Step r .take { r with source := rest, producer := .holding item }
  | finish (choosing : r.producer = .choosing) (none : r.source = []) (ends : r.ending = .ends) :
      Step r .take { r with producer := .finished }
  | hand (a : α) (holding : r.producer = .holding (.ok a)) (subscribed : r.subscribed)
      (room : r.channel.length < r.capacity) :
      Step r .hand { r with channel := r.channel ++ [.ok a], producer := .choosing }
  | handLast (f : Fault) (holding : r.producer = .holding (.error f)) (subscribed : r.subscribed)
      (room : r.channel.length < r.capacity) :
      Step r .hand { r with channel := r.channel ++ [.error f], producer := .finished }
  | notice (gone : r.subscribed = false) (working : r.producer ≠ .finished) :
      Step r .notice { r with producer := .finished }
  | receive (item : Item α) (rest : List (Item α)) (next : r.channel = item :: rest)
      (subscribed : r.subscribed) :
      Step r .receive { r with channel := rest, received := r.received ++ [item] }
  | leave (subscribed : r.subscribed) : Step r .leave { r with subscribed := false, channel := [] }

theorem step_of_move? {r r' : Relay α} {m : Move} (h : r.move? m = some r') : Step r m r' := by
  cases m with
  | take =>
    simp only [move?, take?] at h
    split at h
    · next item rest choosing next =>
      obtain rfl := Option.some.inj h
      exact .take item rest choosing next
    · next choosing none ends =>
      obtain rfl := Option.some.inj h
      exact .finish choosing none ends
    · cases h
  | hand =>
    simp only [move?, hand?] at h
    split at h
    · next item holding =>
      split at h
      · next able =>
        obtain rfl := Option.some.inj h
        cases item with
        | ok a => exact .hand a holding able.1 able.2
        | error f => exact .handLast f holding able.1 able.2
      · cases h
    · cases h
  | notice =>
    simp only [move?, notice?] at h
    split at h
    · cases h
    · next working =>
      rw [not_or, isFinished_iff, Bool.not_eq_true] at working
      obtain rfl := Option.some.inj h
      exact .notice working.1 working.2
  | receive =>
    simp only [move?, receive?] at h
    split at h
    · next item rest next =>
      split at h
      · next subscribed =>
        obtain rfl := Option.some.inj h
        exact .receive item rest next subscribed
      · cases h
    · cases h
  | leave =>
    simp only [move?, leave?] at h
    split at h
    · next subscribed =>
      obtain rfl := Option.some.inj h
      exact .leave subscribed
    · cases h

/-- The relays that may come about over a source that has come up with some events so far. Until it has
ended, a silent source may come up with one more event, or end. -/
inductive Reaches (buffer : Nat) : List (Item α) → Ending → Relay α → Prop
  | new (events : List (Item α)) (ending : Ending) : Reaches buffer events ending (.new buffer events ending)
  | move {events : List (Item α)} {ending : Ending} {r r' : Relay α} (m : Move)
      (before : Reaches buffer events ending r) (moved : r.move? m = some r') :
      Reaches buffer events ending r'
  | arrive {events : List (Item α)} {r : Relay α} (item : Item α)
      (before : Reaches buffer events .silent r) :
      Reaches buffer (events ++ [item]) .silent { r with source := r.source ++ [item] }
  | stop {events : List (Item α)} {r : Relay α} (before : Reaches buffer events .silent r) :
      Reaches buffer events .ends { r with ending := .ends }

/-- Where all the events are that a source has come up with. -/
structure Carries (buffer : Nat) (events : List (Item α)) (ending : Ending) (r : Relay α)
    (lost : List (Item α)) : Prop where
  capacity : r.capacity = max 1 buffer
  ending_eq : r.ending = ending
  parted : events = r.received ++ r.channel ++ lost ++ r.producer.held ++ r.source
  kept : r.subscribed → lost = []
  channel_room : r.channel.length ≤ r.capacity
  room : r.channel.length + lost.length ≤ r.capacity + r.producer.spare
  calm : r.producer ≠ .finished → Calm (r.received ++ r.channel ++ lost)
  inOrder : r.received ++ r.channel <+: upToFault events
  complete : r.producer = .finished → r.subscribed → r.received ++ r.channel = upToFault events ∧
    (ending = .ends ∨ ∃ f, .error f ∈ r.received ++ r.channel)

theorem carries_new (buffer : Nat) (events : List (Item α)) (ending : Ending) :
    Carries buffer events ending (.new buffer events ending) [] where
  capacity := rfl
  ending_eq := rfl
  parted := rfl
  kept _ := rfl
  channel_room := Nat.zero_le _
  room := Nat.zero_le _
  calm _ _ mem := by cases mem
  inOrder := List.nil_prefix
  complete finished := by cases finished

namespace Carries

variable {buffer : Nat} {events : List (Item α)} {ending : Ending} {r r' : Relay α}
  {lost : List (Item α)}

theorem inOrder_of_calm {front lost more : List (Item α)} (parted : events = front ++ lost ++ more)
    (calm : Calm (front ++ lost)) : front <+: upToFault events := by
  rw [parted, upToFault_append calm, List.append_assoc]
  exact List.prefix_append _ _

theorem step (c : Carries buffer events ending r lost) {m : Move} (s : Step r m r') :
    ∃ lost', Carries buffer events ending r' lost' := by
  have room := c.room
  cases s with
  | take item rest choosing next =>
    have open_ : r.producer ≠ .finished := by simp [choosing]
    refine ⟨lost, { c with
      parted := by simpa [Producer.held, choosing, next] using c.parted
      room := by simpa [Producer.spare, choosing] using room
      calm := fun _ => c.calm open_
      complete := fun finished => by cases finished }⟩
  | finish choosing none ends =>
    have open_ : r.producer ≠ .finished := by simp [choosing]
    have parted : events = r.received ++ r.channel ++ lost := by
      simpa [Producer.held, choosing, none] using c.parted
    refine ⟨lost, { c with
      parted := by simpa [Producer.held, none] using parted
      room := Nat.le_trans room (by simp [Producer.spare, choosing])
      calm := fun open_ => absurd rfl open_
      complete := fun _ subscribed => ⟨?_, .inl (c.ending_eq.symm.trans ends)⟩ }⟩
    rw [parted, upToFault_of_calm (c.calm open_), c.kept subscribed, List.append_nil]
  | hand a holding subscribed space =>
    have open_ : r.producer ≠ .finished := by simp [holding]
    obtain rfl := c.kept subscribed
    have parted : events = r.received ++ (r.channel ++ [.ok a]) ++ [] ++ r.source := by
      simpa [Producer.held, holding] using c.parted
    have calm : Calm (r.received ++ (r.channel ++ [.ok a]) ++ []) := by
      simpa using (c.calm open_).append (calm_ok a)
    exact ⟨[], { c with
      parted := by simpa [Producer.held] using parted
      channel_room := by simpa using Nat.succ_le_of_lt space
      room := by simpa [Producer.spare] using Nat.succ_le_of_lt space
      calm := fun _ => calm
      inOrder := inOrder_of_calm parted calm
      complete := fun finished => by cases finished }⟩
  | handLast f holding subscribed space =>
    have open_ : r.producer ≠ .finished := by simp [holding]
    obtain rfl := c.kept subscribed
    have parted : events = r.received ++ r.channel ++ .error f :: r.source := by
      simpa [Producer.held, holding] using c.parted
    have all : r.received ++ (r.channel ++ [.error f]) = upToFault events := by
      rw [parted, upToFault_append (by simpa using c.calm open_), ← List.append_assoc]
      rfl
    refine ⟨[], { c with
      parted := by simpa [Producer.held] using parted
      channel_room := by simpa using Nat.succ_le_of_lt space
      room := by simpa [Producer.spare] using Nat.le_of_lt space
      calm := fun open_ => absurd rfl open_
      inOrder := all ▸ List.prefix_rfl
      complete := fun _ _ => ⟨all, .inr ⟨f, by simp⟩⟩ }⟩
  | notice gone _ =>
    have one := r.producer.held_add_spare
    -- the item that the producer may have held is lost with the rest
    refine ⟨lost ++ r.producer.held, { c with
      parted := by simpa [Producer.held] using c.parted
      kept := fun subscribed => by simp [gone] at subscribed
      room := ?_
      calm := fun open_ => absurd rfl open_
      complete := fun _ subscribed => by simp [gone] at subscribed }⟩
    simp only [List.length_append, Producer.spare]
    omega
  | receive item rest next subscribed =>
    have channel_room := c.channel_room
    rw [next, List.length_cons] at room channel_room
    refine ⟨lost, { c with
      parted := by simpa [next] using c.parted
      channel_room := Nat.le_of_succ_le channel_room
      room := by dsimp only; omega
      calm := by simpa [next] using c.calm
      inOrder := by simpa [next] using c.inOrder
      complete := by simpa [next] using c.complete }⟩
  | leave subscribed =>
    obtain rfl := c.kept subscribed
    refine ⟨r.channel, { c with
      parted := by simpa using c.parted
      kept := fun still => by cases still
      channel_room := Nat.zero_le _
      room := by simpa using room
      calm := by simpa using c.calm
      inOrder := ?_
      complete := fun _ still => by cases still }⟩
    rw [List.append_nil]
    exact (List.prefix_append _ _).trans c.inOrder

theorem arrive (c : Carries buffer events .silent r lost) (item : Item α) :
    Carries buffer (events ++ [item]) .silent { r with source := r.source ++ [item] } lost :=
  { c with
    parted := by
      rw [c.parted]
      simp
    inOrder := c.inOrder.trans (upToFault_extends _ _)
    complete := fun finished subscribed => by
      obtain ⟨all, ends | ⟨f, mem⟩⟩ := c.complete finished subscribed
      · cases ends
      · have mem' := mem_of_mem_upToFault (all ▸ mem)
        exact ⟨all.trans (upToFault_of_fault mem' _).symm, .inr ⟨f, mem⟩⟩ }

theorem stop (c : Carries buffer events .silent r lost) :
    Carries buffer events .ends { r with ending := .ends } lost :=
  { c with
    ending_eq := rfl
    complete := fun finished subscribed => ⟨(c.complete finished subscribed).1, .inl rfl⟩ }

end Carries

theorem Reaches.carries {buffer : Nat} {events : List (Item α)} {ending : Ending} {r : Relay α}
    (h : Reaches buffer events ending r) : ∃ lost, Carries buffer events ending r lost := by
  induction h with
  | new events ending => exact ⟨[], carries_new buffer events ending⟩
  | move m before moved ih =>
    obtain ⟨lost, c⟩ := ih
    exact c.step (step_of_move? moved)
  | arrive item before ih =>
    obtain ⟨lost, c⟩ := ih
    exact ⟨lost, c.arrive item⟩
  | stop before ih =>
    obtain ⟨lost, c⟩ := ih
    exact ⟨lost, c.stop⟩

def moves? (r : Relay α) (ms : List Move) : Option (Relay α) :=
  ms.foldlM move? r

theorem Reaches.moves {buffer : Nat} {events : List (Item α)} {ending : Ending} {r r' : Relay α}
    (h : Reaches buffer events ending r) (ms : List Move) (moved : r.moves? ms = some r') :
    Reaches buffer events ending r' := by
  induction ms generalizing r with
  | nil =>
    obtain rfl := Option.some.inj moved
    exact h
  | cons m ms ih =>
    obtain ⟨r₁, first, rest⟩ := Option.bind_eq_some_iff.mp moved
    exact ih (h.move m first) rest

/-- Wherever producer and subscriber stand, what is received and what is in the channel are in the order
of the events, with none left out. The producer is at most one event ahead of a full channel. A
subscriber that has stayed sees the end only after all events up to the first fault, and only if the
source has ended or failed. -/
theorem relay_delivers {buffer : Nat} {events : List (Item α)} {ending : Ending} {r : Relay α}
    (h : Reaches buffer events ending r) :
    r.received ++ r.channel <+: upToFault events ∧
      r.channel.length ≤ max 1 buffer ∧
      (∃ taken, events = taken ++ r.source ∧
        taken.length ≤ r.received.length + (max 1 buffer + 1)) ∧
      (r.subscribed → r.isClosed → r.received = upToFault events ∧
        (ending = .ends ∨ ∃ f, .error f ∈ r.received)) := by
  obtain ⟨lost, c⟩ := h.carries
  refine ⟨c.inOrder, c.capacity ▸ c.channel_room, ⟨_, c.parted, ?_⟩, fun subscribed closed => ?_⟩
  · have room := c.room
    have one := r.producer.held_add_spare
    rw [c.capacity] at room
    simp only [List.length_append]
    omega
  · obtain ⟨finished, empty⟩ : r.producer = .finished ∧ r.channel = [] := by
      simpa [isClosed] using closed
    simpa [empty] using c.complete finished subscribed

def failing : List (Item Nat) :=
  [.ok 1, .error ⟨.serviceUnavailable, "feed lost", none⟩, .ok 2]

theorem relay_delivers_failing : ∃ r : Relay Nat, Reaches 0 failing .silent r ∧ r.subscribed ∧
    r.isClosed ∧ r.received = upToFault failing := by
  have start : Reaches 0 failing .silent (.new 0 failing .silent) := .new failing .silent
  have reached := start.moves [.take, .hand, .take, .receive, .hand, .receive] rfl
  exact ⟨_, reached, rfl, rfl, ((relay_delivers reached).2.2.2 rfl rfl).1⟩

end Relay

end InfraGraph.Feed

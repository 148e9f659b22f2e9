import InfraGraph.Proofs.Feed.Stopping

/-!
A subscriber that takes all there is. The producer works ahead until it can do no more, which is at its end
or at a full channel. So the channel is found empty only at the end, when everything up to the first fault
has been received.
-/

namespace InfraGraph.Feed.Relay

variable {α : Type}

theorem firstMove?_eq_some {r r' : Relay α} {ms : List Move} (h : r.firstMove? ms = some r') :
    ∃ m ∈ ms, r.move? m = some r' := by
  induction ms with
  | nil => cases h
  | cons m ms ih =>
    rw [firstMove?] at h
    split at h
    · next moved =>
      obtain rfl := Option.some.inj h
      exact ⟨m, List.mem_cons_self, moved⟩
    · obtain ⟨m', mem, moved⟩ := ih h
      exact ⟨m', List.mem_cons_of_mem m mem, moved⟩

theorem firstMove?_eq_none {r : Relay α} {ms : List Move} (h : r.firstMove? ms = none) :
    ∀ m ∈ ms, r.move? m = none := by
  induction ms with
  | nil => simp
  | cons m ms ih =>
    rw [firstMove?] at h
    split at h
    · cases h
    · next stuck =>
      intro m' mem
      rcases List.mem_cons.mp mem with rfl | later
      · exact stuck
      · exact ih h m' later

/-- How many moves the producer still has to make, at most, for a subscriber who stays. -/
def left (r : Relay α) : Nat :=
  match r.producer with
  | .choosing => 2 * r.source.length + 1
  | .holding _ => 2 * r.source.length + 2
  | .finished => 0

theorem left_le (r : Relay α) : r.left ≤ 2 * r.source.length + 2 := by
  unfold left
  split <;> omega

theorem finished_of_left {r : Relay α} (none : r.left = 0) : r.producer = .finished := by
  unfold left at none
  split at none
  · omega
  · omega
  · assumption

theorem Step.works {r r' : Relay α} {m : Move} (step : Step r m r') (work : m.isWork)
    (subscribed : r.subscribed) :
    r'.subscribed ∧ r'.received = r.received ∧ r'.left < r.left := by
  cases step with
  | take item rest choosing next =>
    refine ⟨subscribed, rfl, ?_⟩
    simp only [left, choosing, next, List.length_cons]
    omega
  | finish choosing none _ =>
    refine ⟨subscribed, rfl, ?_⟩
    simp only [left, choosing]
    omega
  | hand a holding _ _ =>
    refine ⟨subscribed, rfl, ?_⟩
    simp only [left, holding]
    omega
  | handLast f holding _ _ =>
    refine ⟨subscribed, rfl, ?_⟩
    simp only [left, holding]
    omega
  | notice gone _ =>
    rw [gone] at subscribed
    cases subscribed
  | receive _ _ _ _ => cases work
  | leave _ => cases work

section Subscriber

variable {buffer : Nat} {events : List (Item α)}

theorem received_of_closed {ending : Ending} {r : Relay α} (h : Reaches buffer events ending r)
    (subscribed : r.subscribed) (closed : r.isClosed) : r.received = upToFault events := by
  obtain ⟨finished, empty⟩ : r.producer = .finished ∧ r.channel = [] := by
    simpa [isClosed] using closed
  obtain ⟨lost, c⟩ := h.carries
  obtain ⟨all, -⟩ := c.complete finished subscribed
  rwa [empty, List.append_nil] at all

structure Stands (buffer : Nat) (events received : List (Item α)) (r : Relay α) : Prop where
  reaches : Reaches buffer events .ends r
  subscribed : r.subscribed
  received_eq : r.received = received

theorem isWork_of_mem {m : Move} (mem : m ∈ [Move.notice, .hand, .take]) : m.isWork := by
  cases m <;> first | rfl | simp at mem

theorem Stands.produce {received : List (Item α)} (fuel : Nat) {r : Relay α}
    (s : Stands buffer events received r) : Stands buffer events received (r.produce fuel) := by
  induction fuel generalizing r with
  | zero => exact s
  | succ fuel ih =>
    rw [Relay.produce]
    split
    · exact s
    · next r₁ moved =>
      obtain ⟨m, mem, move⟩ := firstMove?_eq_some moved
      obtain ⟨subscribed, same, -⟩ := (step_of_move? move).works (isWork_of_mem mem) s.subscribed
      exact ih ⟨s.reaches.move m move, subscribed, same.trans s.received_eq⟩

theorem produce_stuck {fuel : Nat} {r : Relay α} (subscribed : r.subscribed) (enough : r.left ≤ fuel) :
    (r.produce fuel).producer = .finished ∨
      (r.produce fuel).firstMove? [.notice, .hand, .take] = none := by
  induction fuel generalizing r with
  | zero => exact .inl (finished_of_left (Nat.le_zero.mp enough))
  | succ fuel ih =>
    cases moved : r.firstMove? [.notice, .hand, .take] with
    | none =>
      rw [Relay.produce, moved]
      exact .inr moved
    | some r₁ =>
      obtain ⟨m, mem, move⟩ := firstMove?_eq_some moved
      obtain ⟨subscribed', -, less⟩ := (step_of_move? move).works (isWork_of_mem mem) subscribed
      rw [Relay.produce, moved]
      exact ih subscribed' (by omega)

theorem Stands.finished {received : List (Item α)} {r : Relay α} (s : Stands buffer events received r)
    (stuck : r.firstMove? [.notice, .hand, .take] = none) (empty : r.channel = []) :
    r.producer = .finished := by
  obtain ⟨lost, c⟩ := s.reaches.carries
  have moves := firstMove?_eq_none stuck
  have take := moves .take (by simp)
  have hand := moves .hand (by simp)
  have room : 0 < r.capacity := by
    rw [c.capacity]
    omega
  -- a source that ends can always be asked, and an empty channel takes what the producer holds
  cases hp : r.producer with
  | finished => rfl
  | choosing =>
    cases hs : r.source with
    | nil => simp [move?, take?, hp, hs, c.ending_eq] at take
    | cons item rest => simp [move?, take?, hp, hs] at take
  | holding item =>
    simp [move?, hand?, hp, s.subscribed, empty, room] at hand

theorem Stands.work {received : List (Item α)} {r : Relay α} (s : Stands buffer events received r) :
    Stands buffer events received r.work ∧ (r.work.channel = [] → received = upToFault events) := by
  have stands := s.produce (2 * r.source.length + 2)
  refine ⟨stands, fun empty => ?_⟩
  have finished : r.work.producer = .finished :=
    (produce_stuck s.subscribed r.left_le).elim id fun stuck => stands.finished stuck empty
  have closed : r.work.isClosed := by simp [isClosed, finished, empty]
  rw [← stands.received_eq]
  exact received_of_closed stands.reaches stands.subscribed closed

theorem consume_received {count : Nat} {r : Relay α} {received : List (Item α)}
    (s : Stands buffer events received r) (enough : events.length < received.length + count) :
    (r.consume count).received = upToFault events := by
  induction count generalizing r received with
  | zero =>
    obtain ⟨lost, c⟩ := s.reaches.carries
    have parted := congrArg List.length c.parted
    simp only [List.length_append, s.received_eq] at parted
    omega
  | succ count ih =>
    obtain ⟨stands, closed⟩ := s.work
    -- what is received is part of the events, so the count cannot run out before the channel is empty
    cases hc : r.work.channel with
    | nil =>
      have none : r.work.receive? = none := by simp [receive?, hc]
      rw [consume, none, stands.received_eq]
      exact closed hc
    | cons item rest =>
      have next : r.work.receive? = some { r.work with
          channel := rest, received := r.work.received ++ [item] } := by
        simp [receive?, hc, stands.subscribed]
      rw [consume, next]
      have more : Stands buffer events (received ++ [item])
          { r.work with channel := rest, received := r.work.received ++ [item] } :=
        ⟨stands.reaches.move .receive next, stands.subscribed,
          congrArg (· ++ [item]) stands.received_eq⟩
      refine ih more ?_
      rw [List.length_append, List.length_singleton]
      omega

/-- Subscribing without a limit brings all events up to the first fault, and that fault, whatever the size
of the channel. -/
theorem subscribe_received (buffer : Nat) (events : List (Item α)) :
    ((Relay.new buffer events .ends).subscribe none).received = upToFault events := by
  have start : Stands buffer events [] (.new buffer events .ends) := ⟨.new events .ends, rfl, rfl⟩
  refine consume_received start ?_
  rw [List.length_nil, Nat.zero_add]
  exact Nat.lt_succ_self _

end Subscriber

end InfraGraph.Feed.Relay

import InfraGraph.Proofs.Feed.Delivery

/-!
How a producer stops. Once the subscriber has gone, each move of the producer brings it nearer to its end,
and it can move until it is there: it may take one more item, which it cannot hand on, and then it must
notice. The source may come up with events for ever. When it has failed, or its end was found, it is not
asked again.
-/

namespace InfraGraph.Feed

variable {α : Type}

def Move.isWork : Move → Bool
  | take => true
  | hand => true
  | notice => true
  | receive => false
  | leave => false

/-- What may happen to a relay: a move, or one more event of a silent source, or the end of the source. -/
inductive Happening (α : Type)
  | moved (m : Move)
  | arrived (item : Item α)
  | stopped

namespace Happening

def isWork : Happening α → Bool
  | moved m => m.isWork
  | _ => false

def arrivals : List (Happening α) → List (Item α)
  | [] => []
  | arrived item :: hs => item :: arrivals hs
  | _ :: hs => arrivals hs

theorem arrivals_cons (h : Happening α) (hs : List (Happening α)) :
    arrivals (h :: hs) = arrivals [h] ++ arrivals hs := by
  cases h <;> rfl

end Happening

namespace Producer

/-- How many moves a producer is from its end, at most, when nobody listens. -/
def rank : Producer α → Nat
  | choosing => 2
  | holding _ => 1
  | finished => 0

inductive Sated : Producer α → Prop
  | finished : Sated .finished
  | holding (f : Fault) : Sated (.holding (.error f))

end Producer

namespace Relay

open Happening

def after? (r : Relay α) : Happening α → Option (Relay α)
  | .moved m => r.move? m
  | .arrived item => if r.ending = .silent then some { r with source := r.source ++ [item] } else none
  | .stopped => if r.ending = .silent then some { r with ending := .ends } else none

/-- A relay after some happenings, if they can happen in this order. -/
def course? (r : Relay α) (hs : List (Happening α)) : Option (Relay α) :=
  hs.foldlM after? r

theorem course?_cons {r r' : Relay α} {h : Happening α} {hs : List (Happening α)} :
    r.course? (h :: hs) = some r' ↔ ∃ r₁, r.after? h = some r₁ ∧ r₁.course? hs = some r' :=
  Option.bind_eq_some_iff

inductive Happens (r : Relay α) : Happening α → Relay α → Prop
  | move {m : Move} {r' : Relay α} (step : Step r m r') : Happens r (.moved m) r'
  | arrive (item : Item α) : Happens r (.arrived item) { r with source := r.source ++ [item] }
  | stop : Happens r .stopped { r with ending := .ends }

theorem happens_of_after? {r r' : Relay α} {h : Happening α} (happens : r.after? h = some r') :
    Happens r h r' := by
  cases h with
  | moved m => exact .move (step_of_move? happens)
  | arrived item =>
    simp only [after?] at happens
    split at happens
    · obtain rfl := Option.some.inj happens
      exact .arrive item
    · cases happens
  | stopped =>
    simp only [after?] at happens
    split at happens
    · obtain rfl := Option.some.inj happens
      exact .stop
    · cases happens

structure Winds (r r' : Relay α) (hs : List (Happening α)) : Prop where
  gone : r'.subscribed = false
  work : hs.countP isWork + r'.producer.rank ≤ r.producer.rank
  taken : ∃ taken, r.source ++ arrivals hs = taken ++ r'.source ∧
    taken.length + (r'.producer.rank - 1) ≤ r.producer.rank - 1

theorem Winds.trans {r r₁ r' : Relay α} {h : Happening α} {hs : List (Happening α)}
    (first : Winds r r₁ [h]) (rest : Winds r₁ r' hs) : Winds r r' (h :: hs) where
  gone := rest.gone
  work := by
    have before := first.work
    have after := rest.work
    rw [List.countP_cons] at before ⊢
    rw [List.countP_nil] at before
    omega
  taken := by
    obtain ⟨taken, parted, few⟩ := first.taken
    obtain ⟨more, parted', few'⟩ := rest.taken
    refine ⟨taken ++ more, ?_, ?_⟩
    · rw [arrivals_cons, ← List.append_assoc, parted, List.append_assoc, parted', List.append_assoc]
    · rw [List.length_append]
      omega

theorem Happens.winds {r r' : Relay α} {h : Happening α} (happens : Happens r h r')
    (gone : r.subscribed = false) : Winds r r' [h] := by
  have deaf {P : Prop} (subscribed : r.subscribed = true) : P := by
    rw [gone] at subscribed
    cases subscribed
  cases happens with
  | arrive item => exact ⟨gone, by simp [Happening.isWork], [], by simp [arrivals], by simp⟩
  | stop => exact ⟨gone, by simp [Happening.isWork], [], by simp [arrivals], by simp⟩
  | move step =>
    cases step with
    | take item rest choosing next =>
      refine ⟨gone, ?_, [item], ?_, ?_⟩
      · simp [choosing, Producer.rank, Happening.isWork, Move.isWork]
      · simp [next, arrivals]
      · simp [choosing, Producer.rank]
    | finish choosing none _ =>
      refine ⟨gone, ?_, [], ?_, ?_⟩
      · simp [choosing, Producer.rank, Happening.isWork, Move.isWork]
      · simp [arrivals]
      · simp [Producer.rank]
    | notice _ working =>
      refine ⟨gone, ?_, [], ?_, ?_⟩
      · have rank : 1 ≤ r.producer.rank := by
          cases hp : r.producer with
          | choosing => exact Nat.le_succ 1
          | holding item => exact Nat.le_refl 1
          | finished => exact absurd hp working
        simpa [Producer.rank, Happening.isWork, Move.isWork] using rank
      · simp [arrivals]
      · simp [Producer.rank]
    | hand _ _ subscribed _ => exact deaf subscribed
    | handLast _ _ subscribed _ => exact deaf subscribed
    | receive _ _ _ subscribed => exact deaf subscribed
    | leave subscribed => exact deaf subscribed

theorem winds_course {r r' : Relay α} {hs : List (Happening α)} (gone : r.subscribed = false)
    (course : r.course? hs = some r') : Winds r r' hs := by
  induction hs generalizing r with
  | nil =>
    obtain rfl := Option.some.inj course
    exact ⟨gone, by simp, [], by simp [arrivals], by simp⟩
  | cons h hs ih =>
    obtain ⟨r₁, happens, rest⟩ := course?_cons.mp course
    have first := (happens_of_after? happens).winds gone
    exact first.trans (ih first.gone rest)

theorem finished_iff_of_gone {r : Relay α} (gone : r.subscribed = false) :
    r.producer = .finished ↔ ∀ m : Move, m.isWork → r.move? m = none := by
  constructor
  · intro finished m work
    cases m with
    | take => simp [move?, take?, finished]
    | hand => simp [move?, hand?, finished]
    | notice => simp [move?, notice?, finished]
    | receive => cases work
    | leave => cases work
  · intro stuck
    have unnoticed := stuck .notice rfl
    simpa [move?, notice?, gone] using unnoticed

theorem Happens.sated {r r' : Relay α} {h : Happening α} (happens : Happens r h r')
    (sated : r.producer.Sated) :
    r'.producer.Sated ∧ h ≠ .moved .take ∧ r'.source = r.source ++ arrivals [h] := by
  cases happens with
  | arrive item => exact ⟨sated, by simp, rfl⟩
  | stop => exact ⟨sated, by simp, by simp [arrivals]⟩
  | move step =>
    rw [show ∀ m, arrivals [(moved m : Happening α)] = [] from fun _ => rfl, List.append_nil]
    cases step with
    | take item rest choosing _ =>
      rw [choosing] at sated
      cases sated
    | finish choosing _ _ =>
      rw [choosing] at sated
      cases sated
    | hand a holding _ _ =>
      rw [holding] at sated
      cases sated
    | handLast _ _ _ _ => exact ⟨.finished, by simp, rfl⟩
    | notice _ _ => exact ⟨.finished, by simp, rfl⟩
    | receive _ _ _ _ => exact ⟨sated, by simp, rfl⟩
    | leave _ => exact ⟨sated, by simp, rfl⟩

theorem sated_course {r r' : Relay α} {hs : List (Happening α)} (sated : r.producer.Sated)
    (course : r.course? hs = some r') :
    .moved .take ∉ hs ∧ r'.source = r.source ++ arrivals hs := by
  induction hs generalizing r with
  | nil =>
    obtain rfl := Option.some.inj course
    simp [arrivals]
  | cons h hs ih =>
    obtain ⟨r₁, happens, rest⟩ := course?_cons.mp course
    obtain ⟨still, other, source⟩ := (happens_of_after? happens).sated sated
    obtain ⟨untaken, all⟩ := ih still rest
    constructor
    · rw [List.mem_cons, not_or]
      exact ⟨other.symm, untaken⟩
    · rw [all, source, arrivals_cons h hs, List.append_assoc]

theorem Reaches.sated {buffer : Nat} {events : List (Item α)} {ending : Ending} {r : Relay α}
    (h : Reaches buffer events ending r) {taken : List (Item α)} {f : Fault}
    (parted : events = taken ++ r.source) (fault : .error f ∈ taken) : r.producer.Sated := by
  obtain ⟨lost, c⟩ := h.carries
  have all : taken = r.received ++ r.channel ++ lost ++ r.producer.held :=
    List.append_cancel_right (parted.symm.trans c.parted)
  cases hp : r.producer with
  | finished => exact .finished
  | choosing =>
    have calm := c.calm (by simp [hp])
    rw [all, hp] at fault
    exact absurd (by simpa [Producer.held] using fault) (calm f)
  | holding item =>
    rw [all, hp, List.mem_append] at fault
    rcases fault with earlier | held
    · exact absurd earlier (c.calm (by simp [hp]) f)
    · obtain rfl := List.mem_singleton.mp held
      exact .holding f

theorem sated_of_end {r r' : Relay α} (taken : r.take? = some r') (none : r.source = []) :
    r'.producer.Sated := by
  cases step_of_move? (m := .take) taken with
  | take item rest _ next =>
    rw [none] at next
    cases next
  | finish _ _ _ => exact .finished

theorem produce_finished {r : Relay α} (finished : r.producer = .finished) (fuel : Nat) :
    (produce fuel r).producer = .finished := by
  cases fuel with
  | zero => exact finished
  | succ fuel =>
    have stuck : r.firstMove? [.notice, .hand, .take] = none := by
      simp [firstMove?, move?, notice?, hand?, take?, finished]
    rw [produce, stuck]
    exact finished

theorem drop_finished (r : Relay α) : r.drop.producer = .finished := by
  have gone : ((r.leave?).getD r).subscribed = false := by
    unfold leave?
    split
    · rfl
    · next deaf => exact Bool.not_eq_true _ ▸ deaf
  unfold drop work
  generalize (r.leave?).getD r = left at gone
  by_cases finished : left.producer = .finished
  · exact produce_finished finished _
  · have noticed : left.firstMove? [.notice, .hand, .take] = some { left with producer := .finished } := by
      simp [firstMove?, move?, notice?, gone, finished]
    rw [produce, noticed]
    exact produce_finished rfl _

/-- From wherever a relay stands when its subscriber has gone, whatever the source comes up with, the
producer makes at most two more moves and takes at most one more item, and it can move until it has
finished. Once the source has failed, or its end was found, the producer asks it for nothing more, whether
the subscriber is there or not. -/
theorem producer_stops {buffer : Nat} {events : List (Item α)} {ending : Ending} {r : Relay α}
    (h : Reaches buffer events ending r) :
    (r.subscribed = false → ∀ hs r', r.course? hs = some r' →
      hs.countP Happening.isWork ≤ 2 ∧
      (∃ taken, r.source ++ arrivals hs = taken ++ r'.source ∧ taken.length ≤ 1) ∧
      (r'.producer = .finished ↔ ∀ m : Move, m.isWork → r'.move? m = none)) ∧
    r.drop.producer = .finished ∧
    ((∃ taken f, events = taken ++ r.source ∧ .error f ∈ taken) ∨
        (∃ before : Relay α, before.take? = some r ∧ before.source = []) →
      ∀ hs r', r.course? hs = some r' →
        .moved .take ∉ hs ∧ r'.source = r.source ++ arrivals hs) := by
  refine ⟨fun gone hs r' course => ?_, r.drop_finished, fun exhausted hs r' course => ?_⟩
  · have winds := winds_course gone course
    have rank : r.producer.rank ≤ 2 := by
      cases r.producer <;> simp [Producer.rank]
    have work := winds.work
    obtain ⟨taken, parted, few⟩ := winds.taken
    exact ⟨by omega, ⟨taken, parted, by omega⟩, finished_iff_of_gone winds.gone⟩
  · refine sated_course ?_ course
    rcases exhausted with ⟨taken, f, parted, fault⟩ | ⟨before, found, none⟩
    · exact h.sated parted fault
    · exact sated_of_end found none

theorem producer_stops_blocked : ∃ r r' : Relay Nat, Reaches 1 failing .silent r ∧
    r.subscribed = false ∧ r.course? [.arrived (.ok 3), .moved .notice] = some r' ∧
    r'.source = r.source ++ [.ok 3] ∧ ∀ m : Move, m.isWork → r'.move? m = none := by
  have start : Reaches 1 failing .silent (.new 1 failing .silent) := .new failing .silent
  have reached := start.moves [.take, .hand, .take, .leave] rfl
  obtain ⟨winds, _, sated⟩ := producer_stops reached
  obtain ⟨_, _, ended⟩ := winds rfl [.arrived (.ok 3), .moved .notice] _ rfl
  have untaken := (sated (.inl ⟨failing.take 2, _, rfl, List.mem_cons_of_mem _ List.mem_cons_self⟩)
    [.arrived (.ok 3), .moved .notice] _ rfl).2
  exact ⟨_, _, reached, rfl, rfl, untaken, ended.mp rfl⟩

end Relay

end InfraGraph.Feed

import InfraGraph.Proofs.Graph.Exchanges

/-!
Resolvers and the store. A resolver that makes one write, and makes it last, is atomic: it does all that
it does to the store, or nothing. What goes before the write only finds things in the store. Where no fault
is armed, what a resolver comes to hangs on the store alone.
-/

namespace InfraGraph.Graph.Resolver

variable {α β : Type} {st : Store} {done : α → Store → Prop}

/-- A failure has left the store as it was, and a success has done something to it. -/
def Kept (st : Store) (done : α → Store → Prop) : Except Fault α × Service → Prop
  | (.error _, s) => s.store = st
  | (.ok a, s) => done a s.store

def Atomic (r : Resolver α) (st : Store) (done : α → Store → Prop) : Prop :=
  ∀ s : Service, s.store = st → Kept st done (r.run.carryOut s)

def Finds (r : Resolver α) (st : Store) (found : α → Prop) : Prop :=
  Atomic r st fun a st' => st' = st ∧ found a

variable {found : α → Prop}

theorem finds_pure {a : α} (h : found a) : Finds (pure a) st found :=
  fun _ same => ⟨same, h⟩

theorem finds_ofExcept {e : Except Fault α} (h : ∀ a, e = .ok a → found a) :
    Finds (ofExcept e) st found := by
  intro s same
  cases e with
  | error f => exact same
  | ok a => exact ⟨same, h a rfl⟩

theorem Finds.bind {r : Resolver α} {f : α → Resolver β} {done : β → Store → Prop}
    (h : Finds r st found) (rest : ∀ a, found a → Atomic (f a) st done) : Atomic (r >>= f) st done := by
  intro s same
  have first := h s same
  rcases out : r.run.carryOut s with ⟨g | a, s'⟩ <;> rw [out] at first
  · rw [carryOut_bind_error out]
    exact first
  · rw [carryOut_bind_ok out]
    exact rest a first.2 s' first.1

theorem Finds.attempt {r : Resolver α} (h : Finds r st found) : Finds r.attempt st fun _ => True := by
  intro s same
  have first := h s same
  rw [carryOut_attempt]
  rcases out : r.run.carryOut s with ⟨g | a, s'⟩ <;> rw [out] at first
  · exact ⟨first, trivial⟩
  · exact ⟨first.1, trivial⟩

theorem atomic_ask {q : Request} {done : q.Reply → Store → Prop}
    (h : ∀ s : Service, s.store = st → Kept st done (s.perform q)) :
    Atomic (ask q) st done := by
  intro s same
  have core := Service.store_eq_of_core (s.record_core (.single q.method))
  show Kept st done (s.answer q)
  unfold Service.answer
  generalize s.record (.single q.method) = out at core
  obtain ⟨_ | f, s'⟩ := out
  · exact h s' (core.trans same)
  · exact core.trans same

theorem finds_ask {q : Request} {found : q.Reply → Prop} (read : q.isRead)
    (h : ∀ a, st.answer q = .ok a → found a) : Finds (ask q) st found :=
  atomic_ask fun s same => by
    rw [Service.perform_read read, same]
    cases answer : st.answer q with
    | error f => exact same
    | ok a => exact ⟨same, h a answer⟩

theorem kept_write {r : Except Fault (α × Store)} {s : Service} (same : s.store = st)
    (h : ∀ a st', r = .ok (a, st') → done a st') : Kept st done (s.write r) := by
  rcases r with f | ⟨a, st'⟩
  · exact same
  · exact h a st' rfl

theorem Atomic.imp {r : Resolver α} {done' : α → Store → Prop} (h : Atomic r st done)
    (le : ∀ a st', done a st' → done' a st') : Atomic r st done' := by
  intro s same
  have kept := h s same
  generalize r.run.carryOut s = out at kept ⊢
  obtain ⟨f | a, s'⟩ := out
  · exact kept
  · exact le a s'.store kept

theorem Atomic.and {r : Resolver α} {done' : α → Store → Prop} (h : Atomic r st done)
    (h' : Atomic r st done') : Atomic r st fun a st' => done a st' ∧ done' a st' := by
  intro s same
  have kept := h s same
  have kept' := h' s same
  generalize r.run.carryOut s = out at kept kept' ⊢
  obtain ⟨f | a, s'⟩ := out
  · exact kept
  · exact ⟨kept, kept'⟩

/-- What a resolver comes to where no fault is armed, when nothing but the log changes. -/
def Comes (r : Resolver α) (st : Store) (out : Except Fault α) : Prop :=
  ∀ s : Service, s.store = st → s.armed = [] →
    (r.run.carryOut s).1 = out ∧ (r.run.carryOut s).2.core = s.core

variable {out : Except Fault β}

theorem comes_ofExcept (e : Except Fault α) : Comes (ofExcept e) st e :=
  fun _ _ _ => ⟨rfl, rfl⟩

theorem comes_pure (a : α) : Comes (pure a) st (.ok a) :=
  comes_ofExcept (.ok a)

theorem comes_ask {q : Request} {answer : Except Fault q.Reply}
    (h : ∀ s : Service, s.store = st → s.perform q = (answer, s)) : Comes (ask q) st answer := by
  intro s same calm
  have logged : s.record (.single q.method) = (none, { s with log := s.log ++ [.single q.method] }) := by
    simp [Service.record, calm]
  have performed : s.answer q = (answer, { s with log := s.log ++ [.single q.method] }) := by
    rw [Service.answer, logged]
    exact h _ same
  show (s.answer q).1 = answer ∧ (s.answer q).2.core = s.core
  rw [performed]
  exact ⟨rfl, rfl⟩

theorem comes_read {q : Request} (read : q.isRead) {a : q.Reply} (answer : st.answer q = .ok a) :
    Comes (ask q) st (.ok a) :=
  comes_ask fun s same => by rw [Service.perform_read read, same, answer]

theorem Comes.bind {r : Resolver α} {f : α → Resolver β} {a : α} (h : Comes r st (.ok a))
    (rest : Comes (f a) st out) : Comes (r >>= f) st out := by
  intro s same calm
  obtain ⟨came, core⟩ := h s same calm
  have calm' := r.run.carryOut_calm calm
  rcases carried : r.run.carryOut s with ⟨o, s'⟩
  rw [carried] at came core calm'
  subst came
  obtain ⟨came', core'⟩ := rest s' ((Service.store_eq_of_core core).trans same) calm'
  rw [carryOut_bind_ok carried]
  exact ⟨came', core'.trans core⟩

theorem Comes.attempt {r : Resolver α} {out : Except Fault α} (h : Comes r st out) :
    Comes r.attempt st (.ok out) := by
  intro s same calm
  obtain ⟨came, core⟩ := h s same calm
  rw [carryOut_attempt]
  exact ⟨congrArg Except.ok came, core⟩

end InfraGraph.Graph.Resolver

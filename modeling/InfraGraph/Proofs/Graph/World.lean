import InfraGraph.Graph.Execution
import InfraGraph.Proofs.Catalog.Calls
import InfraGraph.Proofs.Loader.Kept
import InfraGraph.Proofs.Loader.Registry

/-!
What happens to a world while something is read in it. A read, a lookup that is enqueued and one that is
awaited are the moves; each lets the world evolve: time goes on, no ticket and no kept answer is lost,
and what a lookup comes to stays the same unless a fault is used up.
-/

namespace InfraGraph

namespace Graph

open Loader (Awaits Begun Later Orderly Ripe Timely)

/-- A kind and a type are registered together, with the batch lookup of the kind. -/
def Loadable (kind : Kind) (type : EntityType) : Prop :=
  ⟨kind, type, kind⟩ ∈ Loaders.registrations

instance (kind : Kind) (type : EntityType) : Decidable (Loadable kind type) :=
  inferInstanceAs (Decidable (_ ∈ _))

namespace Loaders

def loader (r : Loaders) (kind : Kind) : Loader String Entity :=
  match r.entries.find? (·.kind = kind) with
  | some e => e.loader
  | none => .new r.settings

/-- A kind is served as a type if its loader gives that type and has the source of the kind. -/
def Serves (r : Loaders) (kind : Kind) (type : EntityType) : Prop :=
  ∃ l, r.entries.find? (·.kind = kind) = some ⟨kind, type, kind, l⟩

section Serves

variable {r : Loaders} {kind : Kind} {type : EntityType}

theorem Serves.find_eq (h : r.Serves kind type) :
    r.find kind type = .ok ⟨kind, type, kind, r.loader kind⟩ := by
  obtain ⟨l, here⟩ := h
  simp [Registry.find, loader, here]

theorem Serves.loader_setLoader (h : r.Serves kind type)
    (l : Loader String Entity) (k : Kind) :
    loader (r.setLoader kind l) k = if k = kind then l else r.loader k := by
  obtain ⟨old, here⟩ := h
  by_cases hk : k = kind
  · subst hk
    simp [loader, Registry.setLoader, Registry.find?_replaceIn, here]
  · simp [loader, Registry.setLoader, Registry.find?_replaceIn, hk]

theorem Serves.setLoader (h : r.Serves kind type) (k : Kind) (l : Loader String Entity) :
    Serves (r.setLoader k l) kind type := by
  obtain ⟨old, here⟩ := h
  by_cases hk : kind = k
  · subst hk
    exact ⟨l, by simp [Registry.setLoader, Registry.find?_replaceIn, here]⟩
  · exact ⟨old, by simpa [Registry.setLoader, Registry.find?_replaceIn, hk] using here⟩

theorem serves_new (s : LoaderSettings) (h : Loadable kind type) : (Loaders.new s).Serves kind type := by
  simp only [Loadable, registrations, List.mem_cons, List.not_mem_nil, or_false,
    Registration.mk.injEq] at h
  rcases h with h | h | h | h | h | h | h | h | h | h | h | h <;> obtain ⟨rfl, rfl, -⟩ := h <;> exact ⟨_, rfl⟩

end Serves

@[simp] theorem loader_new (s : LoaderSettings) (kind : Kind) :
    (Loaders.new s).loader kind = .new s := by
  cases kind <;> rfl

end Loaders

structure Lookup where
  scope : Scope
  kind : Kind
  id : String
  deriving DecidableEq

def Lookup.inStore (s : Store) (x : Lookup) : Except Fault (Option Entity) :=
  .ok (s.entity? x.kind x.id)

namespace World

def loader (w : World) (scope : Scope) (kind : Kind) : Loader String Entity :=
  (w.loaders scope).loader kind

def put (w : World) (scope : Scope) (kind : Kind) (l : Loader String Entity) (s : Service) : World :=
  { w with service := s }.setLoaders ((w.loaders scope).setLoader kind l) scope

section Put

variable (w : World) (scope : Scope) (kind : Kind) (l : Loader String Entity) (s : Service)

@[simp] theorem put_now : (w.put scope kind l s).now = w.now := by
  cases scope <;> rfl

@[simp] theorem put_service : (w.put scope kind l s).service = s := by
  cases scope <;> rfl

@[simp] theorem put_settings : (w.put scope kind l s).request.settings = w.request.settings := by
  cases scope <;> rfl

theorem put_loaders (scope' : Scope) : (w.put scope kind l s).loaders scope' =
    if scope' = scope then (w.loaders scope).setLoader kind l else w.loaders scope' := by
  cases scope <;> cases scope' <;> rfl

end Put

def ticket? (w : World) (x : Lookup) : Option (Ticket Entity) :=
  (w.loader x.scope x.kind).ticket? x.id

def kept? (w : World) (x : Lookup) : Option (Except Fault (Option Entity)) :=
  (w.loader x.scope x.kind).kept? x.id

/-- What a lookup comes to: its kept answer, or else what the store says. -/
def look (w : World) (x : Lookup) : Except Fault (Option Entity) :=
  (w.kept? x).getD (x.inStore w.service.store)

/-- The loaders of a world are in order, and batches that have begun are due one delay from now. -/
structure Sound (w : World) : Prop where
  serves : ∀ scope kind type, Loadable kind type → (w.loaders scope).Serves kind type
  orderly : ∀ scope kind, Orderly (w.loader scope kind)
  delay : ∀ scope kind, (w.loader scope kind).delay = w.request.settings.delay
  timely : ∀ scope kind, Timely (w.now + w.request.settings.delay) (w.loader scope kind)

theorem loader_new (s : LoaderSettings) (service : Service) (scope : Scope) (kind : Kind) :
    (World.new s service).loader scope kind = .new s := by
  cases scope <;> exact Loaders.loader_new s kind

@[simp] theorem service_new (s : LoaderSettings) (service : Service) :
    (World.new s service).service = service := rfl

@[simp] theorem settings_new (s : LoaderSettings) (service : Service) :
    (World.new s service).request.settings = s := rfl

@[simp] theorem kept?_new (s : LoaderSettings) (service : Service) (x : Lookup) :
    (World.new s service).kept? x = none := by
  simp [kept?, loader_new]

theorem look_new (s : LoaderSettings) (service : Service) (x : Lookup) :
    (World.new s service).look x = x.inStore service.store := by
  simp [look]

theorem timely_new (latest : Nat) (s : LoaderSettings) :
    Timely latest (.new s : Loader String Entity) := by
  simp [Timely, Loader.new]

theorem sound_new (s : LoaderSettings) (service : Service) : (World.new s service).Sound where
  serves scope kind type h := by cases scope <;> exact Loaders.serves_new s h
  orderly scope kind := loader_new s service scope kind ▸ Loader.orderly_new s
  delay scope kind := by rw [loader_new]; rfl
  timely scope kind := loader_new s service scope kind ▸ timely_new _ s

def Unhit (w w' : World) : Prop :=
  w'.service.armed.length = w.service.armed.length

/-- From a world to a later one, with only reads in between. -/
structure Evolves (w w' : World) : Prop where
  sound : w'.Sound
  settings : w'.request.settings = w.request.settings
  now_le : w.now ≤ w'.now
  core : w'.service.core = w.service.core
  armed : w'.service.armed = w.service.armed ∨
    w'.service.armed.length < w.service.armed.length
  later : ∀ scope kind, Later (w.loader scope kind) (w'.loader scope kind)
  ticket : ∀ x t, w.ticket? x = some t → w'.ticket? x = some t
  look : ∀ x, w'.look x = w.look x ∨
    w'.service.armed.length < w.service.armed.length ∧ ∃ f, w'.look x = .error f

namespace Evolves

variable {w w' w'' : World}

theorem refl (sound : w.Sound) : Evolves w w :=
  ⟨sound, rfl, Nat.le_refl _, rfl, .inl rfl, fun _ _ => .refl _, fun _ _ => id, fun _ => .inl rfl⟩

theorem armed_le (e : Evolves w w') : w'.service.armed.length ≤ w.service.armed.length := by
  rcases e.armed with same | less
  · rw [same]
  · exact Nat.le_of_lt less

theorem store (e : Evolves w w') : w'.service.store = w.service.store :=
  Service.store_eq_of_core e.core

theorem trans (first : Evolves w w') (second : Evolves w' w'') : Evolves w w'' where
  sound := second.sound
  settings := second.settings.trans first.settings
  now_le := first.now_le.trans second.now_le
  core := second.core.trans first.core
  armed := by
    have le := second.armed_le
    rcases first.armed with same | less
    · exact same ▸ second.armed
    · exact .inr (by omega)
  later scope kind := (first.later scope kind).trans (second.later scope kind)
  ticket x t h := second.ticket x t (first.ticket x t h)
  look x := by
    have le := first.armed_le
    have le' := second.armed_le
    rcases second.look x with same | ⟨less, f, failed⟩
    · rcases first.look x with same' | ⟨less', f, failed'⟩
      · exact .inl (same.trans same')
      · exact .inr ⟨by omega, f, same.trans failed'⟩
    · exact .inr ⟨by omega, f, failed⟩

theorem kept (e : Evolves w w') (sound : w.Sound) {x : Lookup} {answer : Except Fault (Option Entity)}
    (h : w.kept? x = some answer) : w'.kept? x = some answer :=
  (e.later x.scope x.kind).kept? (sound.orderly x.scope x.kind)
    (fun id t => e.ticket ⟨x.scope, x.kind, id⟩ t) h

theorem look_eq (e : Evolves w w') (unhit : w.Unhit w') (x : Lookup) : w'.look x = w.look x :=
  (e.look x).resolve_right fun hit => absurd unhit (Nat.ne_of_lt hit.1)

theorem unhit_of_trans (first : Evolves w w') (second : Evolves w' w'') (unhit : w.Unhit w'') :
    w.Unhit w' ∧ w'.Unhit w'' := by
  have le := first.armed_le
  have le' := second.armed_le
  unfold Unhit at unhit ⊢
  omega

end Evolves

section Moves

variable {w : World} {x : Lookup} {type : EntityType}

theorem put_loader (serves : (w.loaders x.scope).Serves x.kind type) (l : Loader String Entity)
    (s : Service) (scope : Scope) (kind : Kind) : (w.put x.scope x.kind l s).loader scope kind =
      if scope = x.scope ∧ kind = x.kind then l else w.loader scope kind := by
  simp only [loader, put_loaders]
  by_cases hs : scope = x.scope
  · subst hs
    simp [serves.loader_setLoader l kind]
  · simp [hs]

theorem Sound.evolves_put (sound : w.Sound) (loadable : Loadable x.kind type)
    {l : Loader String Entity} {s : Service}
    (grows : Loader.Grows (w.now + w.request.settings.delay) (w.loader x.scope x.kind) l)
    (core : s.core = w.service.core)
    (armed : s.armed = w.service.armed ∨ s.armed.length < w.service.armed.length)
    (kept : ∀ id, l.kept? id = (w.loader x.scope x.kind).kept? id ∨
      (w.loader x.scope x.kind).kept? id = none ∧
        (l.kept? id = some (.ok (w.service.store.entity? x.kind id)) ∨
          s.armed.length < w.service.armed.length ∧ ∃ f, l.kept? id = some (.error f))) :
    Evolves w (w.put x.scope x.kind l s) := by
  have serves := sound.serves x.scope x.kind type loadable
  -- every loader but the one that was put stays as it was
  have each : ∀ {P : Scope → Kind → Loader String Entity → Prop}, P x.scope x.kind l →
      (∀ scope kind, P scope kind (w.loader scope kind)) → ∀ scope kind,
      P scope kind ((w.put x.scope x.kind l s).loader scope kind) := by
    intro P new old scope kind
    rw [put_loader serves]
    split
    · next same => obtain ⟨rfl, rfl⟩ := same; exact new
    · exact old scope kind
  refine ⟨⟨?_, ?_, ?_, ?_⟩, by simp, by simp, by simpa using core, by simpa using armed, ?_, ?_, ?_⟩
  · intro scope kind type h
    rw [put_loaders]
    split
    · exact (sound.serves x.scope kind type h).setLoader x.kind l
    · exact sound.serves scope kind type h
  · exact each (P := fun _ _ l => Orderly l) grows.orderly sound.orderly
  · rw [put_settings]
    exact each (P := fun _ _ l => l.delay = w.request.settings.delay)
      (grows.delay.trans (sound.delay _ _)) sound.delay
  · rw [put_settings, put_now]
    exact each (P := fun _ _ l => Timely (w.now + w.request.settings.delay) l) grows.timely sound.timely
  · exact each (P := fun scope kind l => Later (w.loader scope kind) l) grows.later fun _ _ => .refl _
  · intro y t
    exact each (P := fun scope kind l =>
      (w.loader scope kind).ticket? y.id = some t → l.ticket? y.id = some t)
      (grows.ticket y.id t) (fun _ _ => id) y.scope y.kind
  · intro y
    have store : s.store = w.service.store := Service.store_eq_of_core core
    simp only [look, World.kept?, put_service, store]
    rw [put_loader serves]
    split
    · next same =>
      obtain ⟨hs, hk⟩ := same
      rw [hs, hk]
      rcases kept y.id with same | ⟨none, answered | ⟨less, f, failed⟩⟩
      · exact .inl (by rw [same])
      · exact .inl (by simp [none, answered, Lookup.inStore, hk])
      · exact .inr ⟨less, f, by simp [failed]⟩
    · exact .inl rfl

theorem enqueue_eq (serves : (w.loaders x.scope).Serves x.kind type) :
    w.enqueue x.scope x.kind type x.id = .ok (((w.loader x.scope x.kind).enqueue x.id).1,
      w.put x.scope x.kind ((w.loader x.scope x.kind).enqueue x.id).2 w.service) := by
  have found := serves.find_eq
  simp [enqueue, Registry.enqueue, found, put, loader, Except.map, bind, Except.bind, pure, Except.pure]

theorem await_eq (serves : (w.loaders x.scope).Serves x.kind type) (ticket : Ticket Entity) :
    w.await x.scope x.kind type x.id ticket =
      let out := (w.loader x.scope x.kind).await (Service.fetch x.kind) w.now x.id ticket w.service
      (out.1, w.put x.scope x.kind out.2.1 out.2.2) := by
  have found := serves.find_eq
  simp only [await, Registry.await, found]
  rfl

theorem Sound.evolves_ask (sound : w.Sound) {q : Request} (read : q.isRead) :
    Evolves w (w.ask q).2 := by
  obtain ⟨core, armed⟩ : (w.service.answer q).2.core = w.service.core ∧
      ((w.service.answer q).2.armed = w.service.armed ∨
        (w.service.answer q).2.armed.length < w.service.armed.length) := by
    exact (Service.answer_answers read w.service).spent
  refine ⟨⟨sound.serves, sound.orderly, sound.delay, sound.timely⟩, rfl, Nat.le_refl _, core, armed,
    fun _ _ => .refl _, fun _ _ => id, fun y => .inl ?_⟩
  have store : (w.ask q).2.service.store = w.service.store := Service.store_eq_of_core core
  simp only [look, store]
  rfl

theorem ask_eq {q : Request} (read : q.isRead)
    (unhit : w.Unhit (w.ask q).2) :
    (w.ask q).1 = w.service.store.answer q := by
  have answers := Service.answer_answers read w.service
  revert unhit
  simp only [ask, Unhit]
  generalize w.service.answer q = out at answers
  intro unhit
  cases answers with
  | right _ _ => rfl
  | failed f _ less => exact absurd unhit (Nat.ne_of_lt less)

theorem Sound.evolves_tick (sound : w.Sound) : Evolves w w.tick where
  sound := ⟨sound.serves, sound.orderly, sound.delay, fun scope kind =>
    (sound.timely scope kind).mono (Nat.add_le_add_right (Nat.le_add_right _ _) _)⟩
  settings := rfl
  now_le := Nat.le_add_right _ _
  core := rfl
  armed := .inl rfl
  later _ _ := .refl _
  ticket _ _ := id
  look _ := .inl rfl

structure Enqueued (w : World) (x : Lookup) (type : EntityType) (ticket : Ticket Entity) (w' : World) :
    Prop where
  run : w.enqueue x.scope x.kind type x.id = .ok (ticket, w')
  evolves : Evolves w w'
  held : w'.ticket? x = some ticket
  now : w'.now = w.now
  kept : ∀ y, w'.kept? y = w.kept? y
  known : ∀ y, (w'.ticket? y).isSome ↔ y = x ∨ (w.ticket? y).isSome

theorem Sound.enqueued (sound : w.Sound) (loadable : Loadable x.kind type) :
    ∃ ticket w', Enqueued w x type ticket w' := by
  have serves := sound.serves x.scope x.kind type loadable
  have orderly := sound.orderly x.scope x.kind
  refine ⟨_, _, enqueue_eq serves, ?_, ?_, by simp, fun y => ?_, fun y => ?_⟩
  · exact sound.evolves_put loadable
      (Loader.enqueue_grows orderly (sound.timely x.scope x.kind) x.id) rfl (.inl rfl)
      fun id => .inl (Loader.kept?_enqueue orderly x.id id)
  · simp [ticket?, put_loader serves, Loader.enqueue_ticket?]
  · simp only [kept?, put_loader serves]
    split
    · next same => rw [Loader.kept?_enqueue orderly, same.1, same.2]
    · rfl
  · simp only [ticket?, put_loader serves]
    split
    · next same =>
      rw [Loader.ticket?_enqueue_isSome, same.1, same.2]
      obtain ⟨scope, kind, id⟩ := y
      obtain ⟨rfl, rfl⟩ := same
      rw [Lookup.mk.injEq]
      simp
    · next other =>
      have ne : y ≠ x := fun same => other (same ▸ ⟨rfl, rfl⟩)
      simp [ne]

structure Awaited (w : World) (x : Lookup) (type : EntityType) (ticket : Ticket Entity)
    (result : Option (Except Fault (Option Entity))) (w' : World) : Prop where
  run : w.await x.scope x.kind type x.id ticket = (result, w')
  evolves : Evolves w w'
  now : w'.now = w.now
  known : ∀ y, w'.ticket? y = w.ticket? y
  taken : ∀ answer, result = some answer → w'.kept? x = some answer
  waits : result = none → ∃ i, ticket = .batch i ∧ Begun (w'.loader x.scope x.kind) i ∧
    ¬ Ripe w.now (w.loader x.scope x.kind) i

theorem Sound.awaited (sound : w.Sound) (loadable : Loadable x.kind type) {ticket : Ticket Entity}
    (held : w.ticket? x = some ticket) : ∃ result w', Awaited w x type ticket result w' := by
  have serves := sound.serves x.scope x.kind type loadable
  have orderly := sound.orderly x.scope x.kind
  have holds : Loader.Holds (w.loader x.scope x.kind) x.id ticket := fun i hi =>
    orderly.assigned.holds i x.id (hi ▸ held)
  have awaits := Loader.await_awaits (Service.fetch x.kind) w.now orderly.calm holds w.service
  have eq := await_eq serves ticket
  dsimp only at eq
  generalize (w.loader x.scope x.kind).await (Service.fetch x.kind) w.now x.id ticket w.service = out
    at awaits eq
  obtain ⟨result, l, s⟩ := out
  dsimp only at awaits eq
  have spent : s.core = w.service.core ∧
      (s.armed = w.service.armed ∨ s.armed.length < w.service.armed.length) := by
    rcases awaits.backend_eq with rfl | ⟨keys, rfl⟩
    · exact ⟨rfl, .inl rfl⟩
    · exact (Service.fetch_answers x.kind keys w.service).spent
  have grows := awaits.grows orderly (sound.timely x.scope x.kind) (by rw [sound.delay])
  refine ⟨result, _, eq, ?_, by simp, fun y => ?_, ?_, ?_⟩
  · refine sound.evolves_put loadable grows spent.1 spent.2 fun id => ?_
    rcases awaits.kept?_eq orderly id with same | ⟨none, keys, rfl, new⟩
    · exact .inl same
    · refine .inr ⟨none, ?_⟩
      have answers := Service.fetch_answers x.kind keys w.service
      generalize Service.fetch x.kind keys w.service = out at answers new
      cases answers with
      | right _ _ => exact .inl new
      | failed f _ less => exact .inr ⟨less, f, new⟩
  · simp only [ticket?, put_loader serves]
    split
    · next same => rw [awaits.ticket?_eq, same.1, same.2]
    · rfl
  · rintro answer rfl
    simpa [kept?, put_loader serves] using awaits.kept?_of_taken held
  · rintro rfl
    obtain ⟨i, hi, begun, -, raw⟩ := awaits.waits
    exact ⟨i, hi, by simpa [put_loader serves] using begun, raw⟩

end Moves

end World

end Graph

end InfraGraph

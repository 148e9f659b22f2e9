import InfraGraph.Proofs.Api.Terms
import InfraGraph.Proofs.Catalog.Coherence
import InfraGraph.Proofs.Graph.Pasts

/-!
What clients are told. As long as no fault is armed and the store is coherent, every error is a fault of
what was asked for, and every problem is one that the caller of a mutation can mend. Nothing that a client
sends changes that: the store stays coherent, so it goes for the next request as well.
-/

namespace InfraGraph.Api

open InfraGraph.Graph
open FaultCode (OfInput OfWrite)
open Loader (Given Poll)

def coherentTerms : Terms :=
  ⟨OfInput, OfWrite, Entity.Coherent⟩

section Setup

theorem memberOf_ok {m : NamespaceMembership} (one : m.NamesOne) : ∃ x, Link.memberOf m = .ok x := by
  obtain ⟨id, path, roleId, user, account, team, metadata⟩ := m
  cases user <;> cases account <;> cases team <;>
    first | exact ⟨_, rfl⟩ | exact absurd one (by simp [NamespaceMembership.NamesOne])

theorem suits_complete (settings : Settings) : Suits (.complete settings) coherentTerms where
  catalog := by simp [Setup.complete]
  settings := by simp [Setup.complete]
  loaders := by simp [Setup.complete]
  input := .inl rfl
  missing := .inr rfl
  refused := .inl (.inl rfl)
  unmended := by
    rintro c ((rfl | rfl) | rfl) unmended <;> cases unmended
  member m f one bad := by
    obtain ⟨x, named⟩ := memberOf_ok one
    cases named.symm.trans bad
  detail e raw r decodes given bad := by
    obtain ⟨d, decoded⟩ := decodes raw given
    cases decoded.symm.trans bad

end Setup

section Worlds

/-- A batch that was answered with nothing but what is coherent; nothing is primed. -/
def Clean : Loader.Event String Entity → Prop
  | .primed _ _ => False
  | .answered _ _ answer => ∀ id, coherentTerms.Found (answer.map (· id))
  | _ => True

/-- A world in which no fault is armed, the store is coherent, and so is all that the loaders have kept. -/
structure Calm (st : LoaderSettings) (w : World) : Prop where
  calm : w.service.armed = []
  coherent : w.service.store.Coherent
  lived : ∃ pasts, w.Lived st pasts ∧ ∀ kind, ∀ event ∈ pasts kind, Clean event

theorem calm_new (st : LoaderSettings) {service : Service} (calm : service.armed = [])
    (coherent : service.store.Coherent) : Calm st (World.new st service) :=
  ⟨calm, coherent, _, World.lived_new st service, by simp⟩

theorem found_of_given {h : List (Loader.Event String Entity)} {id : String} {ticket : Ticket Entity}
    {r : Except Fault (Option Entity)} (clean : ∀ event ∈ h, Clean event)
    (holds : coherentTerms.Holds ticket) (given : Given h id ticket r) : coherentTerms.Found r := by
  rcases given with ⟨e, primed, rfl⟩ | ⟨i, keys, answer, mem, rfl⟩
  · intro found same
    exact Option.some.inj same ▸ holds e primed
  · exact clean _ mem id

theorem clean_of_poll {kind : Kind} {s s' : Service} {more : List (Loader.Event String Entity)}
    (calm : s.armed = []) (coherent : s.store.Coherent) (poll : Poll (Service.fetch kind) s more s') :
    s'.armed = [] ∧ s'.store = s.store ∧ ∀ event ∈ more, Clean event := by
  cases poll with
  | rest => exact ⟨calm, rfl, by simp⟩
  | start i => exact ⟨calm, rfl, by simp [Clean]⟩
  | fire i keys =>
    rw [Service.fetch_calm calm]
    refine ⟨calm, rfl, ?_⟩
    simp only [List.forall_mem_cons, Clean, true_and]
    exact ⟨fun id e found => Store.coherent_entity? coherent found, by simp⟩

theorem clean_update {pasts : Pasts} (clean : ∀ kind, ∀ event ∈ pasts kind, Clean event) {kind : Kind}
    {more : List (Loader.Event String Entity)} (next : ∀ event ∈ more, Clean event) (k : Kind) :
    ∀ event ∈ Function.update pasts kind (pasts kind ++ more) k, Clean event := by
  by_cases same : k = kind
  · subst same
    simpa using List.forall_mem_append.mpr ⟨clean k, next⟩
  · simpa [same] using clean k

theorem upheld_calm (st : LoaderSettings) : coherentTerms.Upheld (Calm st) where
  ask := by
    rintro w ⟨calm, coherent, pasts, lived, clean⟩ q
    obtain ⟨⟨shown, coherent'⟩, calm'⟩ := Service.tame_answer coherent calm q
    exact ⟨⟨calm', coherent', pasts, lived.of_request rfl, clean⟩, shown⟩
  enqueue := by
    rintro w kind type ⟨calm, coherent, pasts, lived, clean⟩ loadable id
    obtain ⟨i, ticket, w', run, service, lived', drawn⟩ := lived.enqueue loadable id
    refine ⟨ticket, w', run, ⟨service ▸ calm, service ▸ coherent, _, lived', ?_⟩, fun e primed => ?_⟩
    · exact clean_update clean (by simp [Clean])
    · exact absurd primed (drawn e fun mem => clean kind _ mem)
  await := by
    rintro w kind type ticket ⟨calm, coherent, pasts, lived, clean⟩ loadable holds id
    obtain ⟨more, lived', poll, given⟩ := lived.await loadable id ticket
    obtain ⟨armed, store, next⟩ := clean_of_poll calm coherent poll
    have all : ∀ event ∈ pasts kind ++ more, Clean event :=
      List.forall_mem_append.mpr ⟨clean kind, next⟩
    exact ⟨⟨armed, store ▸ coherent, _, lived', clean_update clean next⟩,
      fun r taken => found_of_given all holds (given r taken)⟩
  tick := by
    rintro w ⟨calm, coherent, pasts, lived, clean⟩
    exact ⟨calm, coherent, pasts, lived.of_request rfl, clean⟩

end Worlds

section Sessions

def problemsOf : Except Fault (Outcome Node) → List Problem
  | .ok (.node (.payload p)) => p.problems
  | _ => []

/-- What the fields of a mutation come to; those of a query come to no payload. -/
def Operation.outcomes (s : Setup) (loaders : LoaderSettings) :
    Operation → Service → List (RootField × Except Fault (Outcome Node))
  | query _, _ => []
  | mutation sels, service =>
      Api.outcomes s (Selection.depthAll sels) (rootFields sels) (World.new loaders service)

/-- An operation with what it comes to: the response that a client is given, and the store that is left. -/
structure Reaction where
  operation : Operation
  outcomes : List (RootField × Except Fault (Outcome Node))
  response : Response
  store : Store

namespace Reaction

def problems (r : Reaction) : List Problem :=
  r.outcomes.flatMap fun x => problemsOf x.2

/-- The response to a mutation is put together from the outcomes of all its fields. -/
def Made (s : Setup) (r : Reaction) : Prop :=
  match r.operation with
  | .query _ => r.outcomes = []
  | .mutation sels => r.outcomes.map (·.1) = rootFields sels ∧ ∃ works,
      List.Forall₂ (fun x t => x.1.Settles s (Selection.depthAll sels) x.2 t) r.outcomes works ∧
      r.response = .ofResult ((Work.parts (.object ((rootFields sels).map (·.key))) works).result [])

/-- A client who asks a mutation for its whole payload, and is given it, reads all of the problems in it. -/
def Frank (r : Reaction) : Prop :=
  ∀ key name args act, Mutation.act? name = some act →
    r.operation = .mutation [.field key name args (payloadFields (Mutation.resultName name))] →
    r.response.errors = [] → ∃ clientMutationId result, r.response.data = .object [(key, .object [
      ("clientMutationId", clientMutationId),
      ("problems", .list (r.problems.map fun q => .object [("type", .text q.kind.label),
        ("message", .text q.message), ("field", q.field.elim .null fun f => .list [.text f])])),
      (Mutation.resultName name, result)])]

end Reaction

def session (s : Setup) (loaders : LoaderSettings) : List Operation → Service → List Reaction
  | [], _ => []
  | op :: ops, service =>
      let (response, after) := op.run s loaders service
      ⟨op, op.outcomes s loaders service, response, after.store⟩ :: session s loaders ops after

theorem kind_of_tells {p : Problem} (tells : Tells coherentTerms p) :
    p.kind = .badRequest ∨ p.kind = .notFound ∨ p.kind = .conflict := by
  obtain ⟨c, (rfl | rfl) | rfl, known⟩ := tells
  · exact .inl (Option.some.inj known).symm
  · exact .inr (.inl (Option.some.inj known).symm)
  · exact .inr (.inr (Option.some.inj known).symm)

theorem tells_problemsOf {o : Except Fault (Outcome Node)}
    (ends : Ends OfInput (Outcome.Leads (Node.Fits coherentTerms)) o) :
    ∀ p ∈ problemsOf o, Tells coherentTerms p := by
  unfold problemsOf
  split
  · exact ends.2
  · simp

variable {settings : Settings} {loaders : LoaderSettings} {service : Service}

theorem Operation.problems_kind (calm : service.armed = []) (coherent : service.store.Coherent)
    (op : Operation) : ∀ x ∈ op.outcomes (.complete settings) loaders service, ∀ p ∈ problemsOf x.2,
      p.kind = .badRequest ∨ p.kind = .notFound ∨ p.kind = .conflict := by
  cases op with
  | query sels => simp [Operation.outcomes]
  | mutation sels =>
    intro x here p mem
    have ends := outcomes_meet (suits_complete settings) (upheld_calm loaders) _
      (calm_new loaders calm coherent) x here
    exact kind_of_tells (tells_problemsOf ends p mem)

theorem Operation.made (s : Setup) (loaders : LoaderSettings) (service : Service) (op : Operation)
    (store : Store) :
    Reaction.Made s ⟨op, op.outcomes s loaders service, (op.run s loaders service).1, store⟩ := by
  cases op with
  | query sels => rfl
  | mutation sels => exact ⟨outcomes_fields s _ _ _, mutation_settles s loaders sels service⟩

theorem Operation.frank (s : Setup) (loaders : LoaderSettings) (service : Service) (op : Operation)
    (store : Store) :
    Reaction.Frank ⟨op, op.outcomes s loaders service, (op.run s loaders service).1, store⟩ := by
  rintro key name args act known rfl given
  have ending := Mutation.ending_field (s := s) known args service
  simp only [Reaction.problems, Operation.outcomes, rootFields, rootFieldsOf, Api.outcomes,
    List.append_nil, World.service_new, List.flatMap_cons, List.flatMap_nil]
  generalize came : ((Mutation.field s name args).run.carryOut service).1 = o at ending ⊢
  generalize Mutation.faults s name args service = met at ending
  cases ending with
  | error f _ =>
    have failed : (Operation.mutation [.field key name args (payloadFields (Mutation.resultName name))]).run
        s loaders service = _ := Mutation.mutation_field s loaders known key args _ service
    rw [← Prod.eta ((Mutation.field s name args).run.carryOut service), came, respond_error] at failed
    simp [failed, Response.ofFault] at given
  | result e _ => exact ⟨_, _, congrArg (·.1.data) (Mutation.mutation_told known came loaders key)⟩
  | problem f p => exact ⟨_, _, congrArg (·.1.data) (Mutation.mutation_told known came loaders key)⟩

end Sessions

/-- Whatever clients send, they are told of their own faults only, and the store stays coherent. -/
theorem input_faults_only (settings : Settings) (loaders : LoaderSettings) (service : Service)
    (calm : service.armed = []) (coherent : service.store.Coherent) (ops : List Operation) :
    ∀ r ∈ session (.complete settings) loaders ops service,
      (∀ e ∈ r.response.errors, e.fault.code = .invalidInput ∨ e.fault.code = .notFound) ∧
      (∀ p ∈ r.problems, p.kind = .badRequest ∨ p.kind = .notFound ∨ p.kind = .conflict) ∧
      r.store.Coherent ∧ r.Made (.complete settings) ∧ r.Frank := by
  induction ops generalizing service with
  | nil => simp [session]
  | cons op ops ih =>
    obtain ⟨⟨w, last, after⟩, errors⟩ :=
      op.meets (suits_complete settings) (upheld_calm loaders) (calm_new loaders calm coherent)
    have left : (op.run (.complete settings) loaders service).2.store.Coherent := after ▸ last.coherent
    have unarmed : (op.run (.complete settings) loaders service).2.armed = [] := after ▸ last.calm
    refine List.forall_mem_cons.mpr ⟨⟨errors, fun p mem => ?_, left,
      op.made _ loaders service _, op.frank _ loaders service _⟩, ih _ unarmed left⟩
    obtain ⟨x, here, mem⟩ := List.mem_flatMap.mp mem
    exact op.problems_kind calm coherent x here p mem

def auditedStore : Store :=
  { smallStore with
    users := [⟨"u", "ann", "ann@ops", false, true, .fresh⟩]
    memberships := [⟨"m", "ops", "x", some "u", none, none, .fresh⟩]
    activityEvents := [⟨"e", some "u", none, some "ops", .migrate, .group, "g",
      some "[\"dev\"]".toUTF8.toList, .fresh⟩] }

theorem auditedStore_coherent : auditedStore.Coherent where
  members m mem := by
    obtain rfl := List.mem_singleton.mp mem
    decide
  details e mem raw given := by
    obtain rfl := List.mem_singleton.mp mem
    obtain rfl := Option.some.inj given
    exact ⟨.migrate "dev", by decide +kernel⟩

def carelessOperations : List Operation :=
  [.mutation [.field "grant" "createNamespaceMembership" [("input", .record [])] (payloadFields "membership")],
    .query [.field "memberships" "namespaceMemberships" [("namespacePath", .text "ops")]
        [.field "role" "role" [] []],
      .field "group" "group" [("fullPath", .text "dev")] []]]

theorem input_faults_only_careless :
    (Service.new auditedStore).armed = [] ∧ auditedStore.Coherent ∧
    (session (.complete .standard) ⟨10, 2⟩ carelessOperations (.new auditedStore)).map
        (·.problems.map (·.kind)) = [[.badRequest], []] ∧
    ∀ r ∈ session (.complete .standard) ⟨10, 2⟩ carelessOperations (.new auditedStore),
      (∀ e ∈ r.response.errors, e.fault.code = .invalidInput ∨ e.fault.code = .notFound) ∧
      (∀ p ∈ r.problems, p.kind = .badRequest ∨ p.kind = .notFound ∨ p.kind = .conflict) ∧
      r.store.Coherent ∧ r.Made (.complete .standard) ∧ r.Frank :=
  ⟨rfl, auditedStore_coherent, by decide +kernel,
    input_faults_only .standard ⟨10, 2⟩ (.new auditedStore) rfl auditedStore_coherent carelessOperations⟩

end InfraGraph.Api

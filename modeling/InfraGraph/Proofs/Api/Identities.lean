import InfraGraph.Proofs.Api.Conflicts
import InfraGraph.Proofs.Entity.GlobalId

/-!
Identifiers that lead back. What a node shows as its identifier, or an event as that of its target, is the
way to the same entity through the `node` field: writing an identifier, reading it, and the lookups of the
`node` and `target` fields agree on every kind.
-/

namespace InfraGraph

open Text

def Store.Uuids (s : Store) : Prop :=
  ∀ kind, ∀ e ∈ s.entities kind, Uuid.isUuid e.id

theorem Store.kind_of_mem {s : Store} {kind : Kind} {e : Entity} (mem : e ∈ s.entities kind) :
    e.kind = kind := by
  cases kind <;>
  · obtain ⟨_, _, rfl⟩ := List.mem_map.mp mem
    rfl

def ActivityEvent.targetGlobalId (ev : ActivityEvent) : String :=
  GlobalId.encode ⟨ev.targetType.kind, ev.targetId⟩

namespace Api

open InfraGraph.Graph

def responseOf (s : Setup) (loaders : LoaderSettings) (n : Node) (sels : List Selection)
    (service : Service) : Response :=
  .ofResult (((Work.object (Work.ofRoot (schema s) sels n)).run (Selection.depthAll sels)
    (World.new loaders service)).1.result [])

theorem query_eq_responseOf (s : Setup) (loaders : LoaderSettings) (sels : List Selection)
    (service : Service) : (query s loaders sels service).1 = responseOf s loaders .query sels service :=
  rfl

def outcomeOf (union : String) : Option Entity → Outcome Node
  | none => .value .null
  | some e => .oneOf union (.entity e)

/-- The response of one field that comes to an entity or to nothing. What is asked of the entity is read
off the store. -/
def shown (s : Setup) (store : Store) (key union : String) (inner : List Selection)
    (found : Option Entity) : Response :=
  .ofResult (Reading.object [(key, Reading.ofOutcome (schema s)
    (Reading.ofSelections (schema s) (.ofStore store) inner) [.key key] (.ok (outcomeOf union found)))]).result

section Fields

variable {s : Setup} {service : Service}

theorem responseOf_read (loaders : LoaderSettings) {n : Node} (plain : n.Plain) {key name : String}
    {args : Arguments} {inner : List Selection} (calm : service.armed = [])
    (ordinary : name ≠ "__typename") :
    responseOf s loaders n [.field key name args inner] service =
      .ofResult (Reading.object [(key, Reading.ofOutcome (schema s)
        (Reading.ofSelections (schema s) (.ofStore service.store) inner) [.key key]
        ((resolve s n name args).run.read (.ofStore service.store)).1)]).result := by
  have sound := World.sound_new loaders service
  have unhit := ((fresh_ofRoot s [.field key name args inner] plain).run (Nat.le_refl _)
    sound).evolves.unhit calm
  have result := run_ofRoot s _ plain sound (View.ofStore_shows loaders service) [] unhit
  simp only [Reading.ofSelections, Reading.ofSelection, if_neg ordinary, List.append_nil,
    List.nil_append] at result
  exact congrArg Response.ofResult result

theorem responseOf_field (loaders : LoaderSettings) {n : Node} (plain : n.Plain) {key name : String}
    {args : Arguments} {inner : List Selection} (calm : service.armed = [])
    (ordinary : name ≠ "__typename") {union : String} {found : Option Entity}
    (comes : ((resolve s n name args).run.read (.ofStore service.store)).1 = .ok (outcomeOf union found)) :
    responseOf s loaders n [.field key name args inner] service =
      shown s service.store key union inner found := by
  rw [responseOf_read loaders plain calm ordinary, comes]
  rfl

theorem needLoaders_bind {α : Type} (here : s.loaders) (r : Resolver α) :
    (s.needLoaders >>= fun _ => r) = r := by
  unfold Setup.needLoaders Setup.need
  rw [here]
  rfl

theorem read_unionTo? (here : s.loaders) (union : String) (kind : Kind) (type : EntityType) (id : String)
    (st : Store) :
    ((unionTo? s union (Resolver.load .request kind type id)).run.read (.ofStore st)).1 =
      .ok (outcomeOf union (st.entity? kind id)) := by
  rw [unionTo?, needLoaders_bind here]
  have look : (View.ofStore st).look ⟨.request, kind, id⟩ = .ok (st.entity? kind id) := rfl
  cases found : st.entity? kind id <;>
  · rw [found] at look
    simp only [Resolver.load, ExceptT.run, bind, ExceptT.bind, ExceptT.mk, Plan.bind, Plan.read, look]
    rfl

theorem read_node (here : s.loaders) {args : Arguments} {kind : Kind} {id : String}
    (named : GlobalId.decode (args.id "id") = .ok ⟨kind, id⟩) (loadable : kind ≠ .activityEvent)
    (st : Store) : ((resolve s .query "node" args).run.read (.ofStore st)).1 =
      .ok (outcomeOf "Node" (st.entity? kind id)) := by
  have field : resolve s .query "node" args = unionTo? s "Node" (Query.loadNode kind id) := by
    simp only [resolve, Query.field, Query.node, named]
  obtain ⟨type, -, load⟩ := loadNode_eq loadable id
  rw [field, load, read_unionTo? here]

theorem query_node (here : s.loaders) (loaders : LoaderSettings) (calm : service.armed = [])
    {kind : Kind} {id : String} (loadable : kind ≠ .activityEvent) (uuid : Uuid.isUuid id) (key : String)
    (inner : List Selection) :
    (query s loaders [.field key "node" [("id", .text (GlobalId.encode ⟨kind, id⟩))] inner] service).1 =
      shown s service.store key "Node" inner (service.store.entity? kind id) := by
  rw [query_eq_responseOf]
  refine responseOf_field loaders (by simp [Node.Plain]) calm (by decide) (read_node here ?_ loadable _)
  exact GlobalId.decode_eq_ok_iff.mpr ⟨rfl, uuid⟩

theorem target_kind (t : TargetType) : t.kind ≠ .activityEvent := by
  cases t <;> decide

theorem response_target (here : s.loaders) (loaders : LoaderSettings) (calm : service.armed = [])
    (ev : ActivityEvent) (key : String) (args : Arguments) (inner : List Selection) :
    responseOf s loaders (.entity (.activityEvent ev)) [.field key "target" args inner] service =
      shown s service.store key "ActivityEventTarget" inner
        (service.store.entity? ev.targetType.kind ev.targetId) := by
  obtain ⟨type, -, load⟩ := loadTarget_eq ev.targetType ev.targetId
  have field : resolve s (.entity (.activityEvent ev)) "target" args =
      unionTo? s "ActivityEventTarget" (Resolver.load .request ev.targetType.kind type ev.targetId) :=
    congrArg (unionTo? s "ActivityEventTarget") load
  exact responseOf_field loaders (by simp [Node.Plain]) calm (by decide)
    (field ▸ read_unionTo? here _ _ type _ service.store)

theorem resolve_id (e : Entity) (args : Arguments) :
    resolve s (.entity e) "id" args = pure (.value (.text e.globalId)) := rfl

theorem shown_self (st : Store) (key union : String) (e : Entity) :
    shown s st key union [.field "__typename" "__typename" [] [], .field "id" "id" [] []] (some e) =
      ⟨.object [(key, .object [("__typename", .text e.kind.name), ("id", .text e.globalId)])], []⟩ := by
  have id : ((resolve s (.entity e) "id" []).run.read (.ofStore st)) =
      (.ok (.value (.text e.globalId)), []) := by
    rw [resolve_id]
    rfl
  have inner : Reading.ofSelections (schema s) (.ofStore st)
      [.field "__typename" "__typename" [] [], .field "id" "id" [] []] [.key key] union (.entity e) =
      [("__typename", .value (.text e.kind.name)), ("id", .value (.text e.globalId))] := by
    simp [Reading.ofSelections, Reading.ofSelection, schema, id, Reading.ofOutcome, Reading.after,
      Reading.value, Node.typeName]
  simp [shown, outcomeOf, Reading.ofOutcome, inner, Reading.object, Reading.assemble, Reading.value,
    Work.assemble, Response.ofResult, Value.addAll, Value.tidy, Value.tidyMembers]

end Fields

/-- With distinct UUIDs and no injected faults, what an entity emits as its identifier leads to just that
entity, under its own type and with that identifier; and the target of an event is what its identifier leads
to, so both are null or both are one entity, whose identifier it is. -/
theorem identifiers_lead_back (s : Setup) (loaders : LoaderSettings) (service : Service)
    (here : s.loaders) (calm : service.armed = []) (distinct : service.store.Distinct)
    (uuids : service.store.Uuids) :
    (∀ kind, kind ≠ .activityEvent → ∀ e ∈ service.store.entities kind,
      (∀ args, resolve s (.entity e) "id" args = pure (.value (.text e.globalId))) ∧
      (∀ key inner,
        (query s loaders [.field key "node" [("id", .text e.globalId)] inner] service).1 =
          shown s service.store key "Node" inner (some e)) ∧
      (query s loaders [.field "node" "node" [("id", .text e.globalId)]
          [.field "__typename" "__typename" [] [], .field "id" "id" [] []]] service).1 =
        ⟨.object [("node", .object [("__typename", .text kind.name), ("id", .text e.globalId)])], []⟩) ∧
    ∀ ev : ActivityEvent, Uuid.isUuid ev.targetId → ∃ found,
      (∀ args, resolve s (.entity (.activityEvent ev)) "targetId" args =
        pure (.value (.text ev.targetGlobalId))) ∧
      (∀ key args inner,
        responseOf s loaders (.entity (.activityEvent ev)) [.field key "target" args inner] service =
          shown s service.store key "ActivityEventTarget" inner found) ∧
      (∀ key inner, (query s loaders
          [.field key "node" [("id", .text ev.targetGlobalId)] inner] service).1 =
        shown s service.store key "Node" inner found) ∧
      ∀ e, found = some e → e ∈ service.store.entities ev.targetType.kind ∧
        e.kind = ev.targetType.kind ∧ e.globalId = ev.targetGlobalId := by
  refine ⟨fun kind loadable e mem => ⟨fun args => rfl, ?_⟩, fun ev uuid => ?_⟩
  · have of_kind := Store.kind_of_mem mem
    have found : service.store.entity? e.kind e.id = some e :=
      (Store.entity?_eq_some_iff distinct).mpr ⟨of_kind.symm ▸ mem, rfl⟩
    have leads (key : String) (inner : List Selection) :
        (query s loaders [.field key "node" [("id", .text e.globalId)] inner] service).1 =
          shown s service.store key "Node" inner (some e) := by
      rw [← found]
      exact query_node here loaders calm (of_kind ▸ loadable) (uuids kind e mem) key inner
    refine ⟨leads, ?_⟩
    rw [leads, shown_self, of_kind]
  · refine ⟨service.store.entity? ev.targetType.kind ev.targetId, fun args => rfl,
      response_target here loaders calm ev,
      query_node here loaders calm (target_kind ev.targetType) uuid, fun e found => ?_⟩
    obtain ⟨mem, id⟩ := (Store.entity?_eq_some_iff distinct).mp found
    have of_kind := Store.kind_of_mem mem
    exact ⟨mem, of_kind, by rw [Entity.globalId, of_kind, id, ActivityEvent.targetGlobalId]⟩

def opsGroup : Group :=
  ⟨"6f1c2b3a-0000-4000-8000-00000000000a", "ops", "", "ops", none, "admin", .fresh⟩

def opsUpdated : ActivityEvent :=
  ⟨"6f1c2b3a-0000-4000-8000-00000000000b", none, none, some "ops", .update, .group, opsGroup.id, none, .fresh⟩

def linkedStore : Store where
  users := []
  serviceAccounts := []
  groups := [opsGroup]
  workspaces := []
  memberships := []
  teams := []
  roles := []
  runs := []
  modules := []
  moduleVersions := []
  providers := []
  vcsProviders := []
  activityEvents := [opsUpdated]

theorem linkedStore_distinct : linkedStore.Distinct := by
  intro kind
  cases kind <;> simp [linkedStore, Store.entities]

theorem linkedStore_uuids : linkedStore.Uuids := by
  have each : ∀ kind ∈ Kind.all, ∀ e ∈ linkedStore.entities kind, Uuid.isUuid e.id := by
    decide +kernel
  exact fun kind => each kind kind.mem_all

theorem identifiers_lead_back_linked :
    (query (.complete .standard) ⟨10, 2⟩
        [.field "node" "node" [("id", .text (Entity.group opsGroup).globalId)]
          [.field "__typename" "__typename" [] [], .field "id" "id" [] []]] (.new linkedStore)).1 =
      ⟨.object [("node", .object [("__typename", .text "Group"),
        ("id", .text (Entity.group opsGroup).globalId)])], []⟩ ∧
    ∃ found, ∀ key inner,
      responseOf (.complete .standard) ⟨10, 2⟩ (.entity (.activityEvent opsUpdated))
          [.field key "target" [] inner] (.new linkedStore) =
        shown (.complete .standard) linkedStore key "ActivityEventTarget" inner found ∧
      (query (.complete .standard) ⟨10, 2⟩
          [.field key "node" [("id", .text opsUpdated.targetGlobalId)] inner]
          (.new linkedStore)).1 =
        shown (.complete .standard) linkedStore key "Node" inner found := by
  obtain ⟨entities, events⟩ := identifiers_lead_back (.complete .standard) ⟨10, 2⟩ (.new linkedStore) rfl rfl
    linkedStore_distinct linkedStore_uuids
  obtain ⟨found, -, target, node, -⟩ := events opsUpdated (by decide +kernel)
  refine ⟨(entities .group (by decide) _ (List.mem_singleton.mpr rfl)).2.2, found, fun key inner => ?_⟩
  exact ⟨target key [] inner, node key inner⟩

end Api

end InfraGraph

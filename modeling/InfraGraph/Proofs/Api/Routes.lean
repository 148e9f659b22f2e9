import InfraGraph.Proofs.Api.Identities

/-!
The ways to one entity. A group or a workspace is found by its identifier, by its path, and as a node, and
what is asked of it is answered alike. The fields that look up one kind find what `node` finds; where that is
null, they fail.
-/

namespace InfraGraph

def Entity.fullPath? : Entity → Option String
  | .group g => some g.fullPath
  | .workspace w => some w.fullPath
  | _ => none

/-- Different groups have different paths, and so have different workspaces. -/
structure Store.DistinctPaths (s : Store) : Prop where
  groups : (s.groups.map (·.fullPath)).Nodup
  workspaces : (s.workspaces.map (·.fullPath)).Nodup

namespace Graph

def FieldError.Below (path : List Segment) (e : FieldError) : Prop :=
  ∃ step rest, e.path = path ++ step :: rest

namespace Reading

variable {ν : Type} {s : Schema ν}

theorem errors_ofOutcome {inner : List Segment → String → ν → List (String × Reading)}
    (below : ∀ path position n, ∀ f ∈ inner path position n, ∀ e ∈ f.2.result.errors, e.Below path)
    (path : List Segment) (o : Except Fault (Outcome ν)) :
    ∀ e ∈ (ofOutcome s inner path o).result.errors, path <+: e.path := by
  have inside : ∀ path position n, ∀ e ∈ (object (inner path position n)).result.errors,
      path <+: e.path := by
    intro path position n e mem
    simp only [object, assemble, Work.assemble, List.mem_flatMap, List.mem_map] at mem
    obtain ⟨_, ⟨_, ⟨f, field, rfl⟩, rfl⟩, mem⟩ := mem
    obtain ⟨step, rest, at_⟩ := below path position n f field e mem
    exact at_ ▸ List.prefix_append path _
  intro e mem
  cases o with
  | error f =>
    obtain rfl : e = ⟨path, f⟩ := by simpa [ofOutcome, failed] using mem
    exact List.prefix_rfl
  | ok outcome =>
    cases outcome with
    | value _ => simp [ofOutcome, value] at mem
    | node n => exact inside path _ n e mem
    | oneOf _ n => exact inside path _ n e mem
    | nodes ns =>
      simp only [ofOutcome, assemble, Work.assemble, List.mem_flatMap, List.mem_map] at mem
      obtain ⟨_, ⟨r, item, rfl⟩, mem⟩ := mem
      obtain ⟨i, _, rfl⟩ := List.mem_iff_getElem.mp item
      rw [List.getElem_zipWith] at mem
      exact (List.prefix_append _ _).trans (inside _ _ _ e mem)

mutual

theorem errors_ofSelection (s : Schema ν) (v : View) : ∀ (sel : Selection) (path : List Segment)
    (position : String) (n : ν), ∀ f ∈ ofSelection s v sel path position n,
    ∀ e ∈ f.2.result.errors, e.Below path
  | .field key name args inner, path, position, n => by
    intro f mem e fails
    unfold ofSelection at mem
    split at mem
    · obtain rfl := List.mem_singleton.mp mem
      simp [value] at fails
    · obtain rfl := List.mem_singleton.mp mem
      have below := fun path position n => errors_ofSelections s v inner path position n
      obtain ⟨rest, at_⟩ := errors_ofOutcome below _ _ e fails
      exact ⟨.key key, rest, by rw [← at_, List.append_assoc, List.singleton_append]⟩
  | .fragment type inner, path, position, n => by
    intro f mem e fails
    unfold ofSelection at mem
    split at mem
    · exact errors_ofSelections s v inner path type n f mem e fails
    · split at mem
      · exact errors_ofSelections s v inner path position n f mem e fails
      · cases mem

theorem errors_ofSelections (s : Schema ν) (v : View) : ∀ (sels : List Selection) (path : List Segment)
    (position : String) (n : ν), ∀ f ∈ ofSelections s v sels path position n,
    ∀ e ∈ f.2.result.errors, e.Below path
  | [], _, _, _ => by
    intro f mem
    cases mem
  | sel :: sels, path, position, n => by
    intro f mem e fails
    unfold ofSelections at mem
    rcases List.mem_append.mp mem with here | later
    · exact errors_ofSelection s v sel path position n f here e fails
    · exact errors_ofSelections s v sels path position n f later e fails

end

end Reading

end Graph

namespace Api

open InfraGraph.Graph

def lookupField? : Kind → Option String
  | .group => some "group"
  | .workspace => some "workspace"
  | .role => some "role"
  | .run => some "run"
  | .terraformModule => some "terraformModule"
  | _ => none

def lookupOutcome (kind : Kind) (id : String) : Option Entity → Except Fault (Outcome Node)
  | none => .error (.missing kind id)
  | some e => .ok (.node (.entity e))

/-- The response of a field that comes to an entity, with what is asked of it read off the store. -/
def entityResponse (s : Setup) (st : Store) (key : String) (inner : List Selection) (e : Entity) : Response :=
  .ofResult (Reading.object [(key, Reading.ofOutcome (schema s)
    (Reading.ofSelections (schema s) (.ofStore st) inner) [.key key] (.ok (.node (.entity e))))]).result

def byId (gid : String) : Arguments :=
  [("id", .text gid)]

def byPath (path : String) : Arguments :=
  [("fullPath", .text path)]

section Lookups

variable {s : Setup} {st : Store} {kind : Kind} {id gid : String}

theorem needCatalog_bind {α : Type} (here : s.catalog) (r : Resolver α) :
    (s.needCatalog >>= fun _ => r) = r := by
  unfold Setup.needCatalog Setup.need
  rw [here]
  rfl

theorem read_linkTo (here : s.loaders) (kind : Kind) (type : EntityType) (id : String) (st : Store) :
    ((linkTo s kind type id).run.read (.ofStore st)).1 = lookupOutcome kind id (st.entity? kind id) := by
  rw [linkTo, needLoaders_bind here]
  have look : (View.ofStore st).look ⟨.request, kind, id⟩ = .ok (st.entity? kind id) := rfl
  cases found : st.entity? kind id <;>
  · rw [found] at look
    simp only [Resolver.require, Resolver.load, ExceptT.run, bind, ExceptT.bind, ExceptT.mk, Plan.bind,
      ExceptT.bindCont, Plan.read, look]
    rfl

theorem locate_byId (decoded : GlobalId.decode gid = .ok ⟨kind, id⟩) :
    locate kind ((byId gid).id? "id") ((byId gid).text? "fullPath") = .ok (.id id) := by
  have given : (byId gid).id? "id" = some gid := rfl
  have pathless : (byId gid).text? "fullPath" = none := rfl
  simp only [given, pathless, locate, decodeId, GlobalId.decodeAs, decoded, if_true]

theorem field_byId (catalog : s.catalog) {name : String} (field : lookupField? kind = some name)
    (decoded : GlobalId.decode gid = .ok ⟨kind, id⟩) :
    ∃ type, resolve s .query name (byId gid) = linkTo s kind type id := by
  have located := locate_byId decoded
  have known : decodeId kind gid = .ok id := by
    simp only [decodeId, GlobalId.decodeAs, decoded, if_true]
  cases kind <;> cases field
  case group =>
    refine ⟨.group, ?_⟩
    show Query.group s (byId gid) = _
    rw [Query.group, needCatalog_bind catalog, located]
    rfl
  case workspace =>
    refine ⟨.workspace, ?_⟩
    show Query.workspace s (byId gid) = _
    rw [Query.workspace, needCatalog_bind catalog, located]
    rfl
  case role =>
    refine ⟨.role, ?_⟩
    show (Resolver.ofExcept (decodeId .role gid) >>= fun id => linkTo s .role .role id) = _
    rw [known]
    rfl
  case run =>
    refine ⟨.run, ?_⟩
    show (Resolver.ofExcept (decodeId .run gid) >>= fun id => linkTo s .run .run id) = _
    rw [known]
    rfl
  case terraformModule =>
    refine ⟨.terraformModule, ?_⟩
    show (Resolver.ofExcept (decodeId .terraformModule gid) >>= fun id =>
      linkTo s .terraformModule .terraformModule id) = _
    rw [known]
    rfl

theorem read_ask {v : View} {q : Request} {a : q.Reply} (answered : v.answer q = .ok a)
    (wrap : q.Reply → Entity) :
    ((do return .node (.entity (wrap (← Resolver.ask q))) : Resolver (Outcome Node)).run.read v).1 =
      .ok (.node (.entity (wrap a))) := by
  simp only [Resolver.ask, ExceptT.run, bind, ExceptT.bind, ExceptT.mk, Plan.bind, Plan.read, answered]
  rfl

theorem read_byPath (catalog : s.catalog) (paths : st.DistinctPaths) {name path : String} {e : Entity}
    (mem : e ∈ st.entities kind) (field : lookupField? kind = some name) (there : e.fullPath? = some path) :
    ((resolve s .query name (byPath path)).run.read (.ofStore st)).1 = .ok (.node (.entity e)) := by
  cases kind <;> cases field <;> obtain ⟨x, item, rfl⟩ := List.mem_map.mp mem <;> cases there
  case group =>
    show ((Query.group s (byPath x.fullPath)).run.read (.ofStore st)).1 = _
    rw [Query.group, needCatalog_bind catalog]
    exact read_ask (q := .groupAt x.fullPath)
      (Store.first_of_find? (find?_of_nodup paths.groups item) "group" x.fullPath) Entity.group
  case workspace =>
    show ((Query.workspace s (byPath x.fullPath)).run.read (.ofStore st)).1 = _
    rw [Query.workspace, needCatalog_bind catalog]
    exact read_ask (q := .workspaceAt x.fullPath)
      (Store.first_of_find? (find?_of_nodup paths.workspaces item) "workspace" x.fullPath) Entity.workspace

end Lookups

section Responses

variable {s : Setup} {service : Service} {kind : Kind} {id gid name : String}

theorem lookupField_ordinary (field : lookupField? kind = some name) : name ≠ "__typename" := by
  cases kind <;> cases field <;> decide

theorem lookupField_loadable (field : lookupField? kind = some name) : kind ≠ .activityEvent := by
  rintro rfl
  cases field

theorem shown_none (st : Store) (key union : String) (inner : List Selection) :
    shown s st key union inner none = ⟨.object [(key, .null)], []⟩ := by
  simp [shown, outcomeOf, Reading.ofOutcome, Reading.object, Reading.assemble, Reading.value,
    Work.assemble, Response.ofResult, Value.addAll, Value.tidy, Value.tidyMembers]

theorem shown_fragment (st : Store) (key union : String) (inner : List Selection) (e : Entity) :
    shown s st key union [.fragment e.kind.name inner] (some e) = entityResponse s st key inner e := by
  have asked : Reading.ofSelections (schema s) (.ofStore st) [.fragment e.kind.name inner] [.key key]
      union (.entity e) =
        Reading.ofSelections (schema s) (.ofStore st) inner [.key key] e.kind.name (.entity e) := by
    simp only [Reading.ofSelections, Reading.ofSelection, List.append_nil]
    exact if_pos rfl
  simp only [shown, outcomeOf, Reading.ofOutcome, asked]
  rfl

def typename : List Selection :=
  [.field "__typename" "__typename" [] []]

theorem shown_typename (st : Store) (key union : String) (e : Entity) :
    shown s st key union typename (some e) =
      ⟨.object [(key, .object [("__typename", .text e.kind.name)])], []⟩ := by
  simp [shown, outcomeOf, typename, Reading.ofOutcome, Reading.ofSelections, Reading.ofSelection, schema,
    Node.typeName, Reading.object, Reading.assemble, Reading.value, Work.assemble, Response.ofResult,
    Value.addAll, Value.tidy, Value.tidyMembers]

theorem ofResult_failed_reading (key : String) (f : Fault) :
    Response.ofResult (Reading.object [(key, .failed [.key key] f)]).result = .ofFault [.key key] f := by
  simp [Reading.object, Reading.failed, Reading.assemble, Work.assemble, Response.ofResult, Response.ofFault,
    Value.addAll, Value.tidy]

theorem entityResponse_below (st : Store) (key : String) (inner : List Selection) (e : Entity) :
    ∀ err ∈ (entityResponse s st key inner e).errors, err.path ≠ [.key key] := by
  intro err mem
  have mem : err ∈ (Reading.object [(key, Reading.object (Reading.ofSelections (schema s) (.ofStore st) inner
      [.key key] e.kind.name (.entity e)))]).result.errors := (List.mergeSort_perm _ _).mem_iff.mp mem
  simp only [Reading.object, Reading.assemble, Work.assemble, List.map_cons, List.map_nil, List.flatMap_cons,
    List.flatMap_nil, List.append_nil, List.mem_flatMap, List.mem_map] at mem
  obtain ⟨_, ⟨_, ⟨f, field, rfl⟩, rfl⟩, mem⟩ := mem
  obtain ⟨step, rest, at_⟩ := Reading.errors_ofSelections _ _ _ _ _ _ f field err mem
  rw [at_]
  simp

theorem query_byId (catalog : s.catalog) (here : s.loaders) (loaders : LoaderSettings)
    (calm : service.armed = []) (field : lookupField? kind = some name)
    (decoded : GlobalId.decode gid = .ok ⟨kind, id⟩) (key : String) (inner : List Selection) :
    (query s loaders [.field key name (byId gid) inner] service).1 =
      match service.store.entity? kind id with
      | none => .ofFault [.key key] (.missing kind id)
      | some e => entityResponse s service.store key inner e := by
  obtain ⟨type, lookup⟩ := field_byId catalog field decoded
  rw [query_eq_responseOf, responseOf_read loaders (by simp [Node.Plain]) calm (lookupField_ordinary field),
    lookup, read_linkTo here]
  cases service.store.entity? kind id with
  | none => exact ofResult_failed_reading key _
  | some e => rfl

theorem query_nodeById (here : s.loaders) (loaders : LoaderSettings) (calm : service.armed = [])
    (field : lookupField? kind = some name) (decoded : GlobalId.decode gid = .ok ⟨kind, id⟩) (key : String)
    (inner : List Selection) : (query s loaders [.field key "node" (byId gid) inner] service).1 =
      shown s service.store key "Node" inner (service.store.entity? kind id) := by
  have named : GlobalId.decode ((byId gid).id "id") = .ok ⟨kind, id⟩ := decoded
  rw [query_eq_responseOf]
  exact responseOf_field loaders (by simp [Node.Plain]) calm (by decide)
    (read_node here named (lookupField_loadable field) _)

theorem node_null_iff (here : s.loaders) (loaders : LoaderSettings) (calm : service.armed = [])
    (field : lookupField? kind = some name) (decoded : GlobalId.decode gid = .ok ⟨kind, id⟩) (key : String) :
    (query s loaders [.field key "node" (byId gid) typename] service).1.data = .object [(key, .null)] ↔
      service.store.entity? kind id = none := by
  rw [query_nodeById here loaders calm field decoded]
  cases service.store.entity? kind id with
  | none => simp [shown_none]
  | some e => simp [shown_typename]

/-- The field of a kind fails as not found just if there is no such entity. What fails below the entity does
not count. -/
theorem fails_iff (catalog : s.catalog) (here : s.loaders) (loaders : LoaderSettings)
    (calm : service.armed = []) (field : lookupField? kind = some name)
    (decoded : GlobalId.decode gid = .ok ⟨kind, id⟩) (key : String) (inner : List Selection) :
    (∃ f : Fault, f.code.label = "NOT_FOUND" ∧
        ⟨[.key key], f⟩ ∈ (query s loaders [.field key name (byId gid) inner] service).1.errors) ↔
      service.store.entity? kind id = none := by
  rw [query_byId catalog here loaders calm field decoded]
  cases service.store.entity? kind id with
  | none => exact iff_of_true ⟨.missing kind id, rfl, List.mem_singleton.mpr rfl⟩ rfl
  | some e =>
    refine iff_of_false ?_ (by simp)
    rintro ⟨f, -, fails⟩
    exact entityResponse_below service.store key inner e _ fails rfl

theorem query_byPath (catalog : s.catalog) (loaders : LoaderSettings) (calm : service.armed = [])
    (paths : service.store.DistinctPaths) {path : String} {e : Entity} (mem : e ∈ service.store.entities kind)
    (field : lookupField? kind = some name) (there : e.fullPath? = some path) (key : String)
    (inner : List Selection) : (query s loaders [.field key name (byPath path) inner] service).1 =
      entityResponse s service.store key inner e := by
  rw [query_eq_responseOf, responseOf_read loaders (by simp [Node.Plain]) calm (lookupField_ordinary field),
    read_byPath catalog paths mem field there]
  rfl

end Responses

/-- With distinct UUIDs, distinct paths and no injected faults, a group or a workspace is answered alike, with
its data and its errors, whether it is named by its identifier, by its path, or as a node. For every
identifier of a kind that has a field of its own, that field fails as not found just if `node` is null; and
then it shows nothing else. Otherwise both show the one entity that has the identifier, and the field itself
has not failed, whatever is asked below it. -/
theorem lookup_routes_agree (s : Setup) (loaders : LoaderSettings) (service : Service) (catalog : s.catalog)
    (here : s.loaders) (calm : service.armed = []) (distinct : service.store.Distinct)
    (uuids : service.store.Uuids) (paths : service.store.DistinctPaths) (kind : Kind) (name : String)
    (field : lookupField? kind = some name) (key : String) (inner : List Selection) :
    let ask (field : String) (args : Arguments) (inner : List Selection) : Response :=
      (query s loaders [.field key field args inner] service).1
    (∀ e ∈ service.store.entities kind, ∀ path, e.fullPath? = some path →
      ask name (byPath path) inner = ask name (byId e.globalId) inner ∧
      ask "node" (byId e.globalId) [.fragment kind.name inner] = ask name (byId e.globalId) inner) ∧
    ∀ gid id, GlobalId.decode gid = .ok ⟨kind, id⟩ →
      ((∃ f : Fault, f.code.label = "NOT_FOUND" ∧ ⟨[.key key], f⟩ ∈ (ask name (byId gid) inner).errors) ↔
        (ask "node" (byId gid) typename).data = .object [(key, .null)]) ∧
      ((ask "node" (byId gid) typename).data = .object [(key, .null)] →
        ask name (byId gid) inner = .ofFault [.key key] (.missing kind id)) ∧
      ((ask "node" (byId gid) typename).data ≠ .object [(key, .null)] →
        ∃ e ∈ service.store.entities kind, e.id = id ∧
          ask "node" (byId gid) typename =
            ⟨.object [(key, .object [("__typename", .text kind.name)])], []⟩ ∧
          ask "node" (byId gid) [.fragment kind.name inner] = ask name (byId gid) inner ∧
          ∀ err ∈ (ask name (byId gid) inner).errors, err.path ≠ [.key key]) := by
  intro ask
  -- both routes come to the response of the entity itself
  have shows {gid id : String} (decoded : GlobalId.decode gid = .ok ⟨kind, id⟩) {e : Entity}
      (of_kind : e.kind = kind) (found : service.store.entity? kind id = some e) :
      ask name (byId gid) inner = entityResponse s service.store key inner e ∧
        ask "node" (byId gid) [.fragment kind.name inner] = entityResponse s service.store key inner e := by
    have own : ask name (byId gid) inner = _ := query_byId catalog here loaders calm field decoded key inner
    have node : ask "node" (byId gid) [.fragment kind.name inner] = _ :=
      query_nodeById here loaders calm field decoded key _
    rw [own, node, found, ← of_kind]
    exact ⟨rfl, shown_fragment service.store key "Node" inner e⟩
  refine ⟨fun e mem path there => ?_, fun gid id decoded => ?_⟩
  · have of_kind := Store.kind_of_mem mem
    have decoded : GlobalId.decode e.globalId = .ok ⟨kind, e.id⟩ :=
      GlobalId.decode_eq_ok_iff.mpr ⟨by rw [Entity.globalId, of_kind], uuids kind e mem⟩
    obtain ⟨own, node⟩ := shows decoded of_kind ((Store.entity?_eq_some_iff distinct).mpr ⟨mem, rfl⟩)
    exact ⟨(query_byPath catalog loaders calm paths mem field there key inner).trans own.symm,
      node.trans own.symm⟩
  · have null := node_null_iff here loaders calm field decoded key
    refine ⟨(fails_iff catalog here loaders calm field decoded key inner).trans null.symm,
      fun nothing => ?_, fun something => ?_⟩
    · have own := query_byId catalog here loaders calm field decoded key inner
      rwa [null.mp nothing] at own
    · obtain ⟨e, found⟩ := Option.ne_none_iff_exists'.mp fun none => something (null.mpr none)
      obtain ⟨mem, same⟩ := (Store.entity?_eq_some_iff distinct).mp found
      have of_kind := Store.kind_of_mem mem
      obtain ⟨own, node⟩ := shows decoded of_kind found
      refine ⟨e, mem, same, ?_, node.trans own.symm, ?_⟩
      · have typed := query_nodeById here loaders calm field decoded key typename
        rwa [found, shown_typename, of_kind] at typed
      · rw [own]
        exact entityResponse_below service.store key inner e

theorem linkedStore_paths : linkedStore.DistinctPaths :=
  ⟨by simp [linkedStore], by simp [linkedStore]⟩

def goneGroup : String :=
  GlobalId.encode ⟨.group, "6f1c2b3a-0000-4000-8000-00000000000c"⟩

theorem lookup_routes_agree_linked :
    let ask (field : String) (args : Arguments) (inner : List Selection) : Response :=
      (query (.complete .standard) ⟨10, 2⟩ [.field "found" field args inner] (.new linkedStore)).1
    let name : List Selection := [.field "name" "name" [] []]
    ask "group" (byPath "ops") name = ask "group" (byId (Entity.group opsGroup).globalId) name ∧
    ask "node" (byId (Entity.group opsGroup).globalId) [.fragment "Group" name] =
      ask "group" (byId (Entity.group opsGroup).globalId) name ∧
    ask "group" (byId goneGroup) name =
      .ofFault [.key "found"] (.missing .group "6f1c2b3a-0000-4000-8000-00000000000c") := by
  intro ask name
  obtain ⟨known, lookups⟩ := lookup_routes_agree (.complete .standard) ⟨10, 2⟩ (.new linkedStore) rfl rfl rfl
    linkedStore_distinct linkedStore_uuids linkedStore_paths .group "group" rfl "found" name
  obtain ⟨path, node⟩ := known (.group opsGroup) (List.mem_singleton.mpr rfl) "ops" rfl
  have decoded : GlobalId.decode goneGroup = .ok ⟨.group, "6f1c2b3a-0000-4000-8000-00000000000c"⟩ :=
    GlobalId.decode_eq_ok_iff.mpr ⟨rfl, by decide +kernel⟩
  have gone : linkedStore.entity? .group "6f1c2b3a-0000-4000-8000-00000000000c" = none := by
    decide +kernel
  have null : ask "node" (byId goneGroup) typename = ⟨.object [("found", .null)], []⟩ := by
    rw [← shown_none linkedStore "found" "Node" typename, ← gone]
    exact query_nodeById rfl ⟨10, 2⟩ rfl rfl decoded "found" typename
  exact ⟨path, node, (lookups goneGroup _ decoded).2.1 (congrArg Response.data null)⟩

end Api

end InfraGraph

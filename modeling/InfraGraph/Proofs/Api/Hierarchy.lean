import InfraGraph.Proofs.Api.Routes
import InfraGraph.Proofs.Catalog.Paths
import InfraGraph.Proofs.Listing.Chronology

/-!
What hangs on paths. The memberships of a path are those kept at the path and at the paths above it, so that
they are handed down from group to group and never to a path that only begins with the same letters. The
groups below a path are those whose parent is the group at the path.
-/

namespace InfraGraph.Api

open InfraGraph.Graph

/-- The response of one field that comes to an outcome. What is asked below it is read off the store. -/
def outcomeResponse (s : Setup) (st : Store) (key : String) (inner : List Selection)
    (o : Except Fault (Outcome Node)) : Response :=
  .ofResult (Reading.object [(key, Reading.ofOutcome (schema s)
    (Reading.ofSelections (schema s) (.ofStore st) inner) [.key key] o)]).result

section Fields

variable {s : Setup} {service : Service}

theorem query_field (loaders : LoaderSettings) (calm : service.armed = []) {name : String}
    (ordinary : name ≠ "__typename") (key : String) (args : Arguments) (inner : List Selection) :
    (query s loaders [.field key name args inner] service).1 = outcomeResponse s service.store key inner
      ((resolve s .query name args).run.read (.ofStore service.store)).1 := by
  rw [query_eq_responseOf, responseOf_read loaders (by simp [Node.Plain]) calm ordinary]
  rfl

theorem read_ask_map {v : View} {q : Request} {β : Type} (f : q.Reply → β) :
    ((Resolver.ask q >>= fun r => pure (f r) : Resolver β).run.read v).1 = (v.answer q).map f := by
  cases answered : v.answer q <;>
  · simp only [Resolver.ask, ExceptT.run, bind, ExceptT.bind, ExceptT.mk, Plan.bind, Plan.read, answered]
    rfl

section Shown

variable {ν : Type} {sch : Schema ν} {inner : List Segment → String → ν → List (String × Reading)}

theorem object_value (key : String) (v : Value) :
    Reading.object [(key, .value v)] = .value (.object [(key, v)]) := by
  simp [Reading.object, Reading.assemble, Reading.value, Work.assemble, Value.addAll]

theorem ofResult_value (v : Value) : Response.ofResult (Reading.value v).result = ⟨v.tidy, []⟩ := by
  simp [Response.ofResult, Reading.value]

theorem ofOutcome_nodes {α : Type} {wrap : α → ν} {key : String} {shown : α → Value}
    (plain : ∀ path position a, inner path position (wrap a) = [(key, .value (shown a))])
    (path : List Segment) (items : List α) : Reading.ofOutcome sch inner path (.ok (.nodes (items.map wrap))) =
      .value (.list (items.map fun a => .object [(key, shown a)])) := by
  have parts : (List.range (items.map wrap).length).zipWith
      (fun i n => Reading.object (inner (path ++ [.index i]) (sch.typeName n) n)) (items.map wrap) =
      items.map fun a => .value (.object [(key, shown a)]) := by
    refine List.ext_getElem (by simp) fun i _ inside => ?_
    rw [List.getElem_zipWith, List.getElem_map, List.getElem_map, plain, object_value]
  simp only [Reading.ofOutcome, parts, Reading.assemble, Work.assemble, List.map_map, List.flatMap_map]
  simp [Reading.value, Function.comp_def]

end Shown

theorem tidyItems_eq {vs : List Value} (tidied : ∀ v ∈ vs, v.tidy = v) : Value.tidyItems vs = vs := by
  induction vs with
  | nil => rfl
  | cons v vs ih =>
    obtain ⟨here, rest⟩ := List.forall_mem_cons.mp tidied
    rw [Value.tidyItems, here, ih rest]

def idOnly : List Selection :=
  [.field "id" "id" [] []]

theorem ofSelections_idOnly (v : View) (path : List Segment) (position : String) (e : Entity) :
    Reading.ofSelections (schema s) v idOnly path position (.entity e) =
      [("id", .value (.text e.globalId))] := by
  have id : (resolve s (.entity e) "id" []).run.read v = (.ok (.value (.text e.globalId)), []) := by
    rw [resolve_id]
    rfl
  simp [idOnly, Reading.ofSelections, Reading.ofSelection, schema, id, Reading.ofOutcome, Reading.after,
    Reading.value]

theorem outcomeResponse_ids (st : Store) (key : String) (es : List Entity) :
    outcomeResponse s st key idOnly (.ok (.nodes (es.map .entity))) =
      ⟨.object [(key, .list (es.map fun e => .object [("id", .text e.globalId)]))], []⟩ := by
  have items : ∀ v ∈ es.map fun e => Value.object [("id", .text e.globalId)], v.tidy = v := by
    intro v mem
    obtain ⟨e, -, rfl⟩ := List.mem_map.mp mem
    simp [Value.tidy, Value.tidyMembers]
  have plain := ofSelections_idOnly (s := s) (.ofStore st)
  rw [outcomeResponse, ofOutcome_nodes plain, object_value, ofResult_value]
  simp [Value.tidy, Value.tidyMembers, tidyItems_eq items]

end Fields

section Memberships

def heldAt (st : Store) (path : String) : List Entity :=
  (st.inherited path).map .namespaceMembership

variable {s : Setup} {service : Service}

theorem read_memberships (catalog : s.catalog) (args : Arguments) (st : Store) :
    ((resolve s .query "namespaceMemberships" args).run.read (.ofStore st)).1 =
      .ok (.nodes ((heldAt st (args.text "namespacePath")).map .entity)) := by
  show ((Query.namespaceMemberships s args).run.read (.ofStore st)).1 = _
  have answer : (View.ofStore st).answer (.memberships (args.text "namespacePath")) =
      .ok (st.membershipsAt (args.text "namespacePath")) := rfl
  rw [Query.namespaceMemberships, needCatalog_bind catalog, read_ask_map, answer, Store.membershipsAt_eq]
  simp only [heldAt, List.map_map]
  rfl

end Memberships

/-- The memberships of a path are, in the order of the store, all those whose own path has segments with
which the segments of the path begin. So a path hands its memberships down to every path below it, and they
keep their order there. -/
theorem memberships_inherited (s : Setup) (loaders : LoaderSettings) (service : Service) (catalog : s.catalog)
    (calm : service.armed = []) (key : String) (path rest : String) :
    let held (path : String) : List Entity := heldAt service.store path
    let ask (path : String) (inner : List Selection) : Response :=
      (query s loaders [.field key "namespaceMemberships" [("namespacePath", .text path)] inner] service).1
    (∀ inner, ask path inner =
      outcomeResponse s service.store key inner (.ok (.nodes ((held path).map .entity)))) ∧
    ask path idOnly =
      ⟨.object [(key, .list ((held path).map fun e => .object [("id", .text e.globalId)]))], []⟩ ∧
    (held path).Sublist (held (path ++ "/" ++ rest)) := by
  intro held ask
  have shows (inner : List Selection) : ask path inner =
      outcomeResponse s service.store key inner (.ok (.nodes ((held path).map .entity))) := by
    have field := query_field (s := s) loaders calm (show "namespaceMemberships" ≠ "__typename" by decide) key
      [("namespacePath", .text path)] inner
    rwa [read_memberships catalog] at field
  refine ⟨shows, (shows idOnly).trans (outcomeResponse_ids service.store key (held path)), ?_⟩
  exact (service.store.inherited_sublist path rest).map _

def nestedMemberships : List NamespaceMembership :=
  [("1", "ops/api"), ("2", "opsx"), ("3", ""), ("4", "ops"), ("5", "ops/"), ("6", "ops//api")].map
    fun (id, path) => ⟨id, path, "r", some "u", none, none, .fresh⟩

def nestedStore : Store :=
  { smallStore with memberships := nestedMemberships }

theorem memberships_inherited_nested :
    ((nestedStore.inherited "ops/api").map (·.id) = ["1", "4"]) ∧
    ((nestedStore.inherited "ops//api").map (·.id) = ["4", "5", "6"]) ∧
    (query (.complete .standard) ⟨1, 100⟩ [.field "held" "namespaceMemberships"
        [("namespacePath", .text "ops/api")] idOnly] (.new nestedStore)).1 =
      ⟨.object [("held", .list ((heldAt nestedStore "ops/api").map fun e =>
        .object [("id", .text e.globalId)]))], []⟩ :=
  ⟨by decide +kernel, by decide +kernel,
    (memberships_inherited (.complete .standard) ⟨1, 100⟩ (.new nestedStore) rfl rfl "held" "ops/api" "").2.1⟩

section Groups

/-- The parent that a listing of groups is restricted to: none if no path is given, or else the group that is
at the path. A path where there is no group restricts to none, like no path at all. -/
inductive NamesParent (st : Store) (args : Arguments) : Option String → Prop
  | top (absent : args.text? "parentPath" = none) : NamesParent st args none
  | group {g : Group} (mem : g ∈ st.groups) (given : args.text? "parentPath" = some g.fullPath) :
      NamesParent st args (some g.id)
  | nowhere {path : String} (given : args.text? "parentPath" = some path)
      (empty : ∀ g ∈ st.groups, g.fullPath ≠ path) : NamesParent st args none

variable {s : Setup} {st : Store} {args : Arguments}

theorem childGroups_eq (paths : (st.groups.map (·.fullPath)).Nodup) {parent : Option String}
    (named : NamesParent st args parent) (search : Option String) :
    ((st.childGroups (args.text? "parentPath")).filter fun g => matchesSearch g.fullPath search) =
      st.groups.filter fun g => g.parentId = parent && matchesSearch g.fullPath search := by
  have restricted : ((args.text? "parentPath").bind fun path =>
      st.groups.find? (·.fullPath = path)).map (·.id) = parent := by
    cases named with
    | top absent => rw [absent]; rfl
    | group mem given => rw [given, Option.bind_some, find?_of_nodup paths mem]; rfl
    | nowhere given empty =>
      rw [given, Option.bind_some, List.find?_eq_none.mpr fun g mem => by simpa using empty g mem]
      rfl
  simp only [Store.childGroups, restricted, List.filter_filter, Bool.and_comm]

theorem read_listing_bind {α β : Type} [Listed α] {settings : Settings} (given : s.settings = some settings)
    (f : Listing α → Resolver β) (v : View) :
    ((listing s args >>= f).run.read v).1 =
      match (pageRequest args).window (orderOf args : Order α) settings.pages with
      | .error r => .error r.fault
      | .ok w => ((f ⟨orderOf args, w⟩).run.read v).1 := by
  have known : s.needSettings = pure settings := by
    unfold Setup.needSettings Setup.need
    rw [given]
    rfl
  have page : (listing s args : Resolver (Listing α)) =
      match (pageRequest args).window (orderOf args : Order α) settings.pages with
      | .error r => throw r.fault
      | .ok w => pure ⟨orderOf args, w⟩ := by
    unfold listing
    rw [known]
    rfl
  rw [page]
  cases (pageRequest args).window (orderOf args : Order α) settings.pages <;> rfl

theorem read_groups {settings : Settings} (given : s.settings = some settings) (catalog : s.catalog) :
    ((resolve s .query "groups" args).run.read (.ofStore st)).1 =
      match (pageRequest args).window (orderOf args : Order Group) settings.pages with
      | .error r => .error r.fault
      | .ok w => (Page.ofList (orderOf args) w ((st.childGroups (args.text? "parentPath")).filter fun g =>
          matchesSearch g.fullPath (args.text? "search"))).map (connect .group .group ⟨orderOf args, w⟩) := by
  show ((Query.groups s args).run.read (.ofStore st)).1 = _
  rw [Query.groups, read_listing_bind given]
  cases (pageRequest args).window (orderOf args : Order Group) settings.pages with
  | error r => rfl
  | ok w =>
    dsimp only
    rw [needCatalog_bind catalog, read_ask_map]
    rfl

def totalOnly : List Selection :=
  [.field "totalCount" "totalCount" [] []]

theorem outcomeResponse_total (key : String) (kind : Kind) (c : Connection Entity) :
    outcomeResponse s st key totalOnly (.ok (.node (.connection kind c))) =
      ⟨.object [(key, .object [("totalCount", .int c.total)])], []⟩ := by
  have total : (resolve s (.connection kind c) "totalCount" []).run.read (.ofStore st) =
      (.ok (.value (.int c.total)), []) := rfl
  have inner (path : List Segment) (position : String) : Reading.ofSelections (schema s) (.ofStore st)
      totalOnly path position (.connection kind c) = [("totalCount", .value (.int c.total))] := by
    simp [totalOnly, Reading.ofSelections, Reading.ofSelection, schema, total, Reading.ofOutcome,
      Reading.after, Reading.value]
  simp only [outcomeResponse, Reading.ofOutcome, inner, object_value, ofResult_value]
  simp [Value.tidy, Value.tidyMembers]

end Groups

theorem outcomeResponse_fault (s : Setup) (st : Store) (key : String) (inner : List Selection) (f : Fault) :
    outcomeResponse s st key inner (.error f) = .ofFault [.key key] f :=
  ofResult_failed_reading key f

section Pages

variable {α : Type} [Listed α] {o : Order α} {w : Window} {items : List α}

theorem ofList_eq_error_iff {f : Fault} : Page.ofList o w items = .error f ↔
    f = Page.noMatch ∧ ∃ c, w.cursor? = some c ∧ ∀ x ∈ items, Listed.id x ≠ c.id := by
  have perm := o.sort_perm items
  rw [Page.ofList, Page.ofSorted_eq_error_iff]
  simp only [perm.mem_iff]

theorem ofPage_shows {p : Page α} (page : Page.ofList o w items = .ok p) (wrap : α → Entity) :
    (Connection.ofPage o wrap p).total = items.length ∧
    (∀ e ∈ (Connection.ofPage o wrap p).edges, ∃ x ∈ items, e.node = wrap x) ∧
    (Connection.ofPage o wrap p).edges.map (·.node) <:+: (o.sort items).map wrap ∧
    ∀ n : Nat, w = .forward n none → items.length ≤ n → n < 18446744073709551616 →
      (Connection.ofPage o wrap p).edges.map (·.node) = (o.sort items).map wrap := by
  have perm := o.sort_perm items
  have length := perm.length_eq
  have part := Page.ofSorted_infix page
  have nodes : (Connection.ofPage o wrap p).edges.map (·.node) = p.items.map wrap := by
    simp [Connection.ofPage, Connection.ofEdges]
  refine ⟨?_, fun e mem => ?_, nodes ▸ part.map _, fun n all large small => ?_⟩
  · obtain ⟨start, stop, rfl⟩ := Page.ofSorted_eq_cut page
    exact congrArg Int.ofNat length
  · obtain ⟨x, here, same⟩ := List.mem_map.mp (nodes ▸ List.mem_map_of_mem mem)
    exact ⟨x, perm.mem_iff.mp (part.subset here), same.symm⟩
  · subst all
    have stop : min (o.sort items).length n = (o.sort items).length := by omega
    have whole : Page.cut (o.sort items) 0 _ = p := Except.ok.inj page
    rw [nodes, ← whole, Page.word64_of_lt small, stop, Page.cut_all]

end Pages

/-- A listing of groups shows those that have the parent it is restricted to and match the search, in the order
asked for: each page is a part of them, a page that is large enough is all of them, and the total is their
number. It fails only if its page is asked for in a wrong way, or by the cursor of a group that is not among
them. -/
theorem groups_of_parent (s : Setup) (settings : Settings) (given : s.settings = some settings)
    (catalog : s.catalog) (loaders : LoaderSettings) (service : Service) (calm : service.armed = [])
    (paths : (service.store.groups.map (·.fullPath)).Nodup) (args : Arguments) (parent : Option String)
    (named : NamesParent service.store args parent) (key : String) :
    let order : Order Group := orderOf args
    let listed := service.store.groups.filter fun g =>
      g.parentId = parent && matchesSearch g.fullPath (args.text? "search")
    let ask (inner : List Selection) : Response :=
      (query s loaders [.field key "groups" args inner] service).1
    (∀ r, (pageRequest args).window order settings.pages = .error r →
      ∀ inner, ask inner = .ofFault [.key key] r.fault) ∧
    ∀ w, (pageRequest args).window order settings.pages = .ok w →
      ((∃ c, w.cursor? = some c ∧ ∀ g ∈ listed, g.id ≠ c.id) →
        ∀ inner, ask inner = .ofFault [.key key] Page.noMatch) ∧
      ((∀ c, w.cursor? = some c → ∃ g ∈ listed, g.id = c.id) → ∃ shown : Connection Entity,
        (∀ inner, ask inner =
          outcomeResponse s service.store key inner (.ok (.node (.connection .group shown)))) ∧
        ask totalOnly = ⟨.object [(key, .object [("totalCount", .int listed.length)])], []⟩ ∧
        (∀ e ∈ shown.edges, ∃ g ∈ listed, e.node = .group g) ∧
        shown.edges.map (·.node) <:+: (order.sort listed).map .group ∧
        ∀ n : Nat, w = .forward n none → listed.length ≤ n → n < 18446744073709551616 →
          shown.edges.map (·.node) = (order.sort listed).map .group) := by
  intro order listed ask
  have field (inner : List Selection) : ask inner = outcomeResponse s service.store key inner
      (match (pageRequest args).window order settings.pages with
        | .error r => .error r.fault
        | .ok w => (Page.ofList order w listed).map (connect .group .group ⟨order, w⟩)) := by
    have answered := query_field (s := s) loaders calm (show "groups" ≠ "__typename" by decide) key args inner
    rwa [read_groups given catalog, childGroups_eq paths named] at answered
  refine ⟨fun r wrong inner => ?_, fun w right => ⟨fun stray inner => ?_, fun known => ?_⟩⟩
  · rw [field, wrong]
    exact outcomeResponse_fault s service.store key inner r.fault
  · have refused : Page.ofList order w listed = .error Page.noMatch := ofList_eq_error_iff.mpr ⟨rfl, stray⟩
    rw [field, right]
    dsimp only
    rw [refused]
    exact outcomeResponse_fault s service.store key inner Page.noMatch
  · cases page : Page.ofList order w listed with
    | error f =>
      obtain ⟨-, c, cursor, absent⟩ := ofList_eq_error_iff.mp page
      obtain ⟨g, mem, same⟩ := known c cursor
      exact absurd same (absent g mem)
    | ok p =>
      have shows (inner : List Selection) : ask inner = outcomeResponse s service.store key inner
          (.ok (.node (.connection .group (Connection.ofPage order .group p)))) := by
        rw [field, right]
        dsimp only
        rw [page]
        rfl
      obtain ⟨total, shown, part, whole⟩ := ofPage_shows page Entity.group
      refine ⟨_, shows, ?_, shown, part, whole⟩
      rw [shows, outcomeResponse_total, total]

def groupTree : Store :=
  { smallStore with groups :=
      [⟨"1", "ops", "", "ops", none, "admin", .fresh⟩, ⟨"2", "api", "", "ops/api", some "1", "admin", .fresh⟩,
        ⟨"3", "web", "", "ops/web", some "1", "admin", .fresh⟩, ⟨"4", "dev", "", "dev", none, "admin", .fresh⟩] }

theorem groups_of_parent_tree :
    let below (path : String) : Arguments := [("parentPath", .text path), ("search", .text "a")]
    NamesParent groupTree (below "ops") (some "1") ∧
    (query (.complete .standard) ⟨1, 100⟩ [.field "found" "groups" (below "ops") totalOnly]
        (.new groupTree)).1 =
      ⟨.object [("found", .object [("totalCount", .int 1)])], []⟩ := by
  intro below
  have named : NamesParent groupTree (below "ops") (some "1") :=
    .group (g := ⟨"1", "ops", "", "ops", none, "admin", .fresh⟩) (.head _) rfl
  obtain ⟨-, pages⟩ := groups_of_parent (.complete .standard) .standard rfl rfl ⟨1, 100⟩ (.new groupTree) rfl
    (by decide +kernel) (below "ops") _ named "found"
  obtain ⟨shown, -, total, -⟩ := (pages (.forward 20 none) rfl).2 (by rintro _ ⟨⟩)
  exact ⟨named, total⟩

/-- No group is at the path, and still one is listed: it has no parent. -/
theorem unknown_parent_lists_top :
    (∀ g ∈ smallStore.groups, g.fullPath ≠ "nope") ∧
    (query (.complete .standard) ⟨1, 100⟩ [.field "groups" "groups" [("parentPath", .text "nope")] totalOnly]
        (.new smallStore)).1 =
      ⟨.object [("groups", .object [("totalCount", .int 1)])], []⟩ := by
  have empty : ∀ g ∈ smallStore.groups, g.fullPath ≠ "nope" := by decide +kernel
  refine ⟨empty, ?_⟩
  have sorted : (Listed.standard : Order Group).sort smallStore.groups = smallStore.groups :=
    List.mergeSort_singleton _
  have page : Page.ofList (Listed.standard : Order Group) (.forward 20 none) smallStore.groups =
      .ok ⟨smallStore.groups, false, false, 1⟩ := by
    rw [Page.ofList, sorted]
    rfl
  have listed : ((resolve (.complete .standard) .query "groups" [("parentPath", .text "nope")]).run.read
      (.ofStore smallStore)).1 = .ok (connect .group .group ⟨Listed.standard, .forward 20 none⟩
        ⟨smallStore.groups, false, false, 1⟩) := by
    rw [read_groups rfl rfl]
    exact congrArg (Except.map _) page
  rw [query_field ⟨1, 100⟩ rfl (by decide)]
  exact (congrArg _ listed).trans (outcomeResponse_total "groups" .group _)

end InfraGraph.Api

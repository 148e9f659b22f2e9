import InfraGraph.Api.Schema
import InfraGraph.Proofs.Graph.Conduct

/-!
What the fields of the schema may do. Away from the root of mutations every field only reads, loads one
entity at most, and never leads to that root; at it no field loads anything.
-/

namespace InfraGraph.Api

open InfraGraph.Graph
open Resolver (Within)

/-- The nodes below the roots, and the root of queries. -/
def Node.Plain (n : Node) : Prop :=
  n ≠ .mutation

variable {allowed : Request → Prop} {n : Nat}

section Parts

variable {β : Type} {good : β → Prop}

@[simp] theorem within_need_bind {present : Bool} {part owner : String} {f : Unit → Resolver β} :
    (Setup.need present part owner >>= f).Within allowed good n ↔
      (present → (f ()).Within allowed good n) := by
  cases present with
  | true => exact ⟨fun h _ => h, fun h => h rfl⟩
  | false => exact ⟨fun _ h => absurd h Bool.false_ne_true, fun _ => Resolver.within_throw⟩

theorem within_listing_bind {α : Type} [Listed α] {s : Setup} {args : Arguments}
    {f : Listing α → Resolver β} (h : ∀ l, (f l).Within allowed good n) :
    (listing s args >>= f).Within allowed good n := by
  have settings : s.needSettings.Within allowed (fun _ => True) 0 := by simp [Setup.needSettings]
  have plain : (listing s args : Resolver (Listing α)).Within allowed (fun _ => True) 0 := by
    unfold listing
    refine settings.bind (m := 0) fun _ _ => ?_
    dsimp only
    split <;> simp
  simpa using plain.bind (m := n) fun l _ => h l

theorem within_locate_bind {kind : Kind} {id path : Option String} {f : Locator → Resolver β}
    (byId : ∀ id, (f (.id id)).Within allowed good n)
    (byPath : ∀ path, (f (.path path)).Within allowed good n) :
    (Resolver.ofExcept (locate kind id path) >>= f).Within allowed good n := by
  rw [Resolver.within_ofExcept_bind]
  rintro (id | path) _
  · exact byId id
  · exact byPath path

end Parts

section Queries

variable {s : Setup}

@[simp] theorem leads_value (v : Value) : (Outcome.value v).Leads Node.Plain := trivial

@[simp] theorem leads_entity (e : Entity) : (Outcome.node (Node.entity e)).Leads Node.Plain := by
  simp [Outcome.Leads, Node.Plain]

@[simp] theorem leads_union (union : String) (e : Entity) :
    (Outcome.oneOf union (Node.entity e)).Leads Node.Plain := by
  simp [Outcome.Leads, Node.Plain]

theorem leads_page {α : Type} [Listed α] {kind : Kind} {wrap : α → Entity} (l : Listing α) (p : Page α) :
    (connect kind wrap l p).Leads Node.Plain := by
  simp [connect, Outcome.Leads, Node.Plain]

@[simp] theorem within_nothing : nothing.Within allowed (Outcome.Leads Node.Plain) n := by
  simp [nothing]

theorem within_page {α : Type} [Listed α] {args : Arguments} {q : Listing α → Request}
    {f : (l : Listing α) → (q l).Reply → Outcome Node} (ok : ∀ l, allowed (q l))
    (leads : ∀ l r, (f l r).Leads Node.Plain) :
    (listing s args >>= fun l => s.needCatalog >>= fun _ => Resolver.ask (q l) >>= fun r =>
      pure (f l r)).Within allowed (Outcome.Leads Node.Plain) n := by
  refine within_listing_bind fun l => ?_
  simp [Setup.needCatalog, ok, leads]

/-- A load from the registry of the request, or none at all. -/
inductive Looks : Resolver (Option Entity) → Prop
  | load {kind : Kind} {type : EntityType} (loadable : Loadable kind type) (id : String) :
      Looks (Resolver.load .request kind type id)
  | none : Looks (pure none)

/-- The table of the `node` field asks for every kind as the registries have it. -/
theorem loadNode_eq {kind : Kind} (h : kind ≠ .activityEvent) (id : String) :
    ∃ type, Loadable kind type ∧ Query.loadNode kind id = Resolver.load .request kind type id := by
  cases kind <;> first | exact absurd rfl h | exact ⟨_, by decide, rfl⟩

/-- The table of the targets of events agrees with that of their identifiers. -/
theorem loadTarget_eq (t : TargetType) (id : String) :
    ∃ type, Loadable t.kind type ∧ Link.loadTarget t id = Resolver.load .request t.kind type id := by
  cases t <;> exact ⟨_, by decide, rfl⟩

theorem looks_node (kind : Kind) (id : String) : Looks (Query.loadNode kind id) := by
  by_cases h : kind = .activityEvent
  · exact h ▸ .none
  · obtain ⟨type, loadable, eq⟩ := loadNode_eq h id
    exact eq ▸ .load loadable id

theorem looks_target (t : TargetType) (id : String) : Looks (Link.loadTarget t id) := by
  obtain ⟨type, loadable, eq⟩ := loadTarget_eq t id
  exact eq ▸ .load loadable id

theorem looks_initiator (e : ActivityEvent) : Looks (Link.loadInitiator e) := by
  unfold Link.loadInitiator
  split
  · exact .load (by decide) _
  · exact .load (by decide) _
  · exact .none

theorem within_linkTo {kind : Kind} {type : EntityType} {id : String} (h : Loadable kind type) :
    (linkTo s kind type id).Within allowed (Outcome.Leads Node.Plain) 1 := by
  simp [linkTo, Setup.needLoaders, h]

theorem within_linkTo? {kind : Kind} {type : EntityType} {id : String} (h : Loadable kind type) :
    (linkTo? s kind type id).Within allowed (Outcome.Leads Node.Plain) 1 := by
  simp only [linkTo?, Setup.needLoaders, within_need_bind, Resolver.within_load_bind]
  refine fun _ => ⟨h, fun e => ?_⟩
  cases e <;> simp

theorem within_unionTo? {union : String} {find : Resolver (Option Entity)} (h : Looks find) :
    (unionTo? s union find).Within allowed (Outcome.Leads Node.Plain) 1 := by
  refine within_need_bind.mpr fun _ => ?_
  cases h with
  | load loadable id =>
    refine Resolver.within_load_bind.mpr ⟨loadable, fun found => ?_⟩
    cases found <;> simp
  | none => exact within_nothing

theorem memberOf_loadable {m : NamespaceMembership} {kind : Kind} {type : EntityType} {id : String}
    (named : Link.memberOf m = .ok (kind, type, id)) : Loadable kind type := by
  unfold Link.memberOf at named
  split at named <;> cases named <;> decide

theorem groupId_within (ok : ∀ path, allowed (.groupAt path)) (id path : Option String) :
    (groupId id path).Within allowed (fun _ => True) 0 :=
  within_locate_bind (fun _ => Resolver.within_pure.mpr trivial) fun path =>
    Resolver.within_ask_bind.mpr ⟨ok path, fun _ => Resolver.within_pure.mpr trivial⟩

theorem workspaceId_within (ok : ∀ path, allowed (.workspaceAt path)) (id path : Option String) :
    (workspaceId id path).Within allowed (fun _ => True) 0 :=
  within_locate_bind (fun _ => Resolver.within_pure.mpr trivial) fun path =>
    Resolver.within_ask_bind.mpr ⟨ok path, fun _ => Resolver.within_pure.mpr trivial⟩

theorem node_reads (args : Arguments) :
    (Query.node s args).Within (·.isRead) (Outcome.Leads Node.Plain) 1 := by
  unfold Query.node
  split
  · exact Resolver.within_throw
  · exact within_unionTo? (looks_node _ _)

theorem group_reads (args : Arguments) :
    (Query.group s args).Within (·.isRead) (Outcome.Leads Node.Plain) 1 :=
  within_need_bind.mpr fun _ => within_locate_bind (fun _ => within_linkTo (by decide)) fun _ =>
    Resolver.within_ask_bind.mpr ⟨rfl, fun _ => Resolver.within_pure.mpr (leads_entity _)⟩

theorem workspace_reads (args : Arguments) :
    (Query.workspace s args).Within (·.isRead) (Outcome.Leads Node.Plain) 1 :=
  within_need_bind.mpr fun _ => within_locate_bind (fun _ => within_linkTo (by decide)) fun _ =>
    Resolver.within_ask_bind.mpr ⟨rfl, fun _ => Resolver.within_pure.mpr (leads_entity _)⟩

theorem namespaceMemberships_reads (args : Arguments) :
    (Query.namespaceMemberships s args).Within (·.isRead) (Outcome.Leads Node.Plain) 1 :=
  within_need_bind.mpr fun _ => Resolver.within_ask_bind.mpr ⟨rfl, fun ms =>
    Resolver.within_pure.mpr fun n mem => by
      obtain ⟨m, -, rfl⟩ := List.mem_map.mp mem
      simp [Node.Plain]⟩

theorem role_reads (args : Arguments) :
    (Query.role s args).Within (·.isRead) (Outcome.Leads Node.Plain) 1 := by
  unfold Query.role
  split
  · exact Resolver.within_ofExcept_bind.mpr fun _ _ => within_linkTo (by decide)
  · exact within_need_bind.mpr fun _ =>
      Resolver.within_ask_bind.mpr ⟨rfl, fun _ => Resolver.within_pure.mpr (leads_entity _)⟩
  · exact Resolver.within_throw

theorem runs_reads (args : Arguments) :
    (Query.runs s args).Within (·.isRead) (Outcome.Leads Node.Plain) 1 := by
  refine within_need_bind.mpr fun _ => within_listing_bind fun l => ?_
  have ask : ∀ workspace, (Resolver.ask (.runs l workspace) >>= fun p =>
      (pure (connect .run .run l p) : Resolver (Outcome Node))).Within
        (·.isRead) (Outcome.Leads Node.Plain) 1 := fun _ =>
    Resolver.within_ask_bind.mpr ⟨rfl, fun _ => Resolver.within_pure.mpr (leads_page l _)⟩
  split
  · exact ask none
  · have named : (some <$> workspaceId (args.id? "workspaceId") (args.text? "workspacePath")).Within
        (·.isRead) (fun _ => True) 0 :=
      (workspaceId_within (fun _ => rfl) _ _).map some fun _ _ => trivial
    simpa using named.bind fun workspace _ => ask workspace

theorem activityEvents_reads (args : Arguments) :
    (Query.activityEvents s args).Within (·.isRead) (Outcome.Leads Node.Plain) 1 :=
  within_listing_bind fun l => Resolver.within_ofExcept_bind.mpr fun _ _ =>
    Resolver.within_ofExcept_bind.mpr fun _ _ => within_need_bind.mpr fun _ =>
      Resolver.within_ask_bind.mpr ⟨rfl, fun _ => Resolver.within_pure.mpr (leads_page l _)⟩

theorem query_reads (name : String) (args : Arguments) :
    (Query.field s name args).Within (·.isRead) (Outcome.Leads Node.Plain) 1 := by
  have byId : ∀ kind type, Loadable kind type → (do
      let id ← Resolver.ofExcept (decodeId kind (args.id "id"))
      linkTo s kind type id : Resolver (Outcome Node)).Within (·.isRead) (Outcome.Leads Node.Plain) 1 :=
    fun _ _ h => Resolver.within_ofExcept_bind.mpr fun _ _ => within_linkTo h
  unfold Query.field
  split
  · exact node_reads args
  · exact within_page (fun _ => rfl) leads_page
  · exact within_page (fun _ => rfl) leads_page
  · exact within_page (fun _ => rfl) leads_page
  · exact group_reads args
  · exact within_page (fun _ => rfl) leads_page
  · exact workspace_reads args
  · exact namespaceMemberships_reads args
  · exact within_page (fun _ => rfl) leads_page
  · exact within_page (fun _ => rfl) leads_page
  · exact role_reads args
  · exact runs_reads args
  · exact byId .run .run (by decide)
  · exact within_page (fun _ => rfl) leads_page
  · exact byId .terraformModule .terraformModule (by decide)
  · exact within_page (fun _ => rfl) leads_page
  · exact within_page (fun _ => rfl) leads_page
  · exact activityEvents_reads args
  · exact within_nothing

end Queries

section Nodes

variable {s : Setup}

theorem member_reads (m : NamespaceMembership) :
    (Link.member s m).Within (·.isRead) (Outcome.Leads Node.Plain) 1 := by
  refine within_need_bind.mpr fun _ => Resolver.within_ofExcept_bind.mpr fun (kind, type, id) named => ?_
  exact Resolver.within_require_bind.mpr
    ⟨memberOf_loadable named, fun _ => Resolver.within_pure.mpr (leads_union _ _)⟩

theorem detail_reads (e : ActivityEvent) :
    (Link.detail e).Within (·.isRead) (Outcome.Leads Node.Plain) 1 := by
  unfold Link.detail
  split
  · exact within_nothing
  · split
    · exact Resolver.within_throw
    · simp [Outcome.Leads, Node.Plain]

theorem link_reads (e : Entity) (field : String) (args : Arguments) :
    (link s e field args).Within (·.isRead) (Outcome.Leads Node.Plain) 1 := by
  unfold link
  split
  · exact within_linkTo (by decide)
  · unfold Link.parent
    split
    · exact within_nothing
    · exact within_linkTo? (by decide)
  · exact within_page (fun _ => rfl) leads_page
  · exact within_linkTo (by decide)
  · exact within_page (fun _ => rfl) leads_page
  · exact within_linkTo (by decide)
  · exact member_reads _
  · exact within_linkTo (by decide)
  · exact within_linkTo (by decide)
  · exact within_page (fun _ => rfl) leads_page
  · exact within_linkTo (by decide)
  · exact within_linkTo (by decide)
  · exact within_linkTo (by decide)
  · exact within_unionTo? (looks_initiator _)
  · exact within_unionTo? (looks_target _ _)
  · exact detail_reads _
  · exact within_nothing

theorem entity_reads (e : Entity) (name : String) (args : Arguments) :
    (entityField s e name args).Within (·.isRead) (Outcome.Leads Node.Plain) 1 := by
  unfold entityField
  split
  · simp [Outcome.Leads, Node.Plain]
  · split
    · simp
    · exact link_reads e name args

theorem eventRun_reads (r : Run) (name : String) (args : Arguments) :
    (eventRunField s r name args).Within (·.isRead) (Outcome.Leads Node.Plain) 1 := by
  unfold eventRunField
  split
  · exact Resolver.within_require_bind.mpr ⟨by decide, fun _ => Resolver.within_pure.mpr (leads_entity _)⟩
  · exact entity_reads (.run r) name args

theorem payload_reads (p : Payload) (name : String) :
    (payloadField p name).Within (·.isRead) (Outcome.Leads Node.Plain) 1 := by
  unfold payloadField
  split_ifs
  · simp
  · refine Resolver.within_pure.mpr fun n mem => ?_
    obtain ⟨p, -, rfl⟩ := List.mem_map.mp mem
    simp [Node.Plain]
  · split <;> simp
  · exact within_nothing

theorem schema_reads (s : Setup) : (schema s).Reads Node.Plain := by
  intro n plain name args
  cases n with
  | query => exact query_reads name args
  | mutation => exact absurd rfl plain
  | entity e => exact entity_reads e name args
  | eventRun r => exact eventRun_reads r name args
  | runEvent e =>
    simp only [schema, resolve]
    unfold runEventField
    split <;> simp [Outcome.Leads, Node.Plain]
  | connection kind c =>
    simp only [schema, resolve]
    unfold connectionField
    split <;> simp [Outcome.Leads, Node.Plain]
  | edge kind e =>
    simp only [schema, resolve]
    unfold edgeField
    split <;> simp
  | payload p => exact payload_reads p name
  | _ => simp [schema, resolve, orNull]

end Nodes

section Mutations

variable {s : Setup}

def Asks {α : Type} (r : Resolver α) : Prop :=
  r.Within (fun _ => True) (fun _ => True) 0

theorem asks_ask {q : Request} : Asks (Resolver.ask q) :=
  Resolver.within_ask.mpr ⟨trivial, fun _ => trivial⟩

theorem Asks.bind {α β : Type} {r : Resolver α} {f : α → Resolver β} (h : Asks r)
    (rest : ∀ a, Asks (f a)) : Asks (r >>= f) :=
  Within.bind h fun a _ => rest a

theorem asks_ofExcept {α : Type} {e : Except Fault α} : Asks (Resolver.ofExcept e) :=
  Resolver.within_ofExcept.mpr fun _ _ => trivial

theorem asks_pure {α : Type} {a : α} : Asks (pure a) :=
  Resolver.within_pure.mpr trivial

theorem asks_need {present : Bool} {part owner : String} : Asks (Setup.need present part owner) := by
  cases present with
  | true => exact asks_pure
  | false => exact Resolver.within_throw

theorem asks_needSettings {s : Setup} : Asks s.needSettings :=
  asks_need.bind fun _ => asks_pure

theorem asks_groupId (id path : Option String) : Asks (groupId id path) :=
  groupId_within (fun _ => trivial) id path

theorem asks_workspaceId (id path : Option String) : Asks (workspaceId id path) :=
  workspaceId_within (fun _ => trivial) id path

theorem asks_roleNamed (name : String) : Asks (Mutation.roleNamed name) :=
  Asks.bind (asks_ask.attempt) fun _ => asks_ofExcept

theorem perform_within {α : Type} {kind : Kind} {wrap : α → Entity} {input : Arguments}
    {write : Resolver α} (h : Asks write) : (Mutation.perform s kind wrap input write).Within
      (fun _ => True) (Outcome.Leads Node.Plain) 0 := by
  refine within_need_bind.mpr fun _ => h.attempt.bind (m := 0) fun _ _ => ?_
  simp [Outcome.Leads, Node.Plain]

theorem mutation_within (name : String) (args : Arguments) : (Mutation.field s name args).Within
    (fun _ => True) (Outcome.Leads Node.Plain) 0 := by
  unfold Mutation.field
  dsimp only
  split
  · exact perform_within ((asks_groupId _ _).bind fun _ => asks_ask)
  · exact perform_within ((asks_groupId _ _).bind fun _ => asks_ask)
  · exact perform_within ((asks_workspaceId _ _).bind fun _ => asks_ask)
  · exact perform_within ((asks_workspaceId _ _).bind fun _ => asks_ask)
  · exact perform_within (asks_ofExcept.bind fun _ => (asks_roleNamed _).bind fun _ => asks_ask)
  · exact perform_within (asks_ofExcept.bind fun _ => (asks_roleNamed _).bind fun _ => asks_ask)
  · exact perform_within (asks_ofExcept.bind fun _ => asks_ask)
  · exact perform_within ((asks_workspaceId _ _).bind fun _ => asks_ask)
  · exact perform_within (asks_ofExcept.bind fun _ => asks_ask)
  · exact perform_within (asks_ofExcept.bind fun _ => asks_ask)
  · exact perform_within (asks_ofExcept.bind fun _ => asks_ask)
  · exact within_nothing

end Mutations

end InfraGraph.Api

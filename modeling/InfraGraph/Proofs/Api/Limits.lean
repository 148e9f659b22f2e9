import InfraGraph.Proofs.Api.Reads
import InfraGraph.Proofs.Graph.Courses
import InfraGraph.Proofs.Listing.Limits
import InfraGraph.Proofs.Listing.Traversal

/-!
Limits on what the fields of the schema list. If the settings have a default size that a request could give,
no field asks the service for a window beyond the maximum, and no connection has more edges. Listings are
the only fields where there is something to show: the others lead to no connection at all.
-/

namespace InfraGraph

def Request.window? : Request → Option Window
  | users l _ => some l.window
  | serviceAccounts l _ _ => some l.window
  | groups l _ _ => some l.window
  | workspaces l _ _ => some l.window
  | teams l _ => some l.window
  | roles l _ => some l.window
  | runs l _ => some l.window
  | modules l _ _ => some l.window
  | moduleVersions l _ _ => some l.window
  | providers l _ _ => some l.window
  | vcsProviders l _ _ => some l.window
  | activityEvents l _ => some l.window
  | _ => none

def Request.Capped (max : Int) (q : Request) : Prop :=
  ∀ w, q.window? = some w → 0 ≤ w.size ∧ w.size ≤ max

theorem Service.perform_of_answer {s : Service} {q : Request} {r : q.Reply} (h : (s.answer q).1 = .ok r) :
    ∃ s' : Service, (s'.perform q).1 = .ok r := by
  unfold answer at h
  split at h
  · cases h
  · exact ⟨_, h⟩

namespace Api

open InfraGraph.Graph

def Node.Capped (max : Int) (n : Node) : Prop :=
  ∀ kind c, n = .connection kind c → (c.edges.length : Int) ≤ max

/-- A field that keeps to a maximum, in what it asks and in what it leads to. -/
def Keeps (max : Int) (r : Resolver (Outcome Node)) : Prop :=
  r.Sends (Request.Capped max) (Outcome.Leads (Node.Capped max))

variable {max : Int} {s : Setup}

section Parts

theorem keeps_value (v : Value) : Keeps max (pure (.value v)) :=
  Resolver.sends_pure trivial

theorem keeps_nothing : Keeps max nothing :=
  keeps_value .null

theorem keeps_node {n : Node} (other : ∀ kind c, n ≠ .connection kind c) : Keeps max (pure (.node n)) :=
  Resolver.sends_pure fun kind c same => absurd same (other kind c)

theorem keeps_nodes {α : Type} {items : List α} {wrap : α → Node}
    (other : ∀ a kind c, wrap a ≠ .connection kind c) : Keeps max (pure (.nodes (items.map wrap))) :=
  Resolver.sends_pure fun n mem => by
    obtain ⟨a, -, rfl⟩ := List.mem_map.mp mem
    exact fun kind c same => absurd same (other a kind c)

theorem keeps_entity (e : Entity) : Keeps max (pure (.node (.entity e))) :=
  keeps_node (by simp)

theorem keeps_union (union : String) {n : Node} (other : ∀ kind c, n ≠ .connection kind c) :
    Keeps max (pure (.oneOf union n)) :=
  Resolver.sends_pure fun kind c same => absurd same (other kind c)

variable {α : Type} {r : Resolver α} {f : α → Resolver (Outcome Node)}

def Prepares (max : Int) (r : Resolver α) : Prop :=
  r.Sends (Request.Capped max) fun _ => True

theorem Prepares.keeps (h : Prepares max r) (rest : ∀ a, Keeps max (f a)) : Keeps max (r >>= f) :=
  Resolver.Sends.bind h fun a _ => rest a

theorem Prepares.bind {β : Type} {f : α → Resolver β} (h : Prepares max r) (rest : ∀ a, Prepares max (f a)) :
    Prepares max (r >>= f) :=
  Resolver.Sends.bind h fun a _ => rest a

theorem prepares_pure (a : α) : Prepares max (pure a) :=
  Resolver.sends_pure trivial

theorem prepares_ofExcept (e : Except Fault α) : Prepares max (Resolver.ofExcept e) :=
  Resolver.sends_ofExcept fun _ _ => trivial

theorem prepares_need (present : Bool) (part owner : String) :
    Prepares max (Setup.need present part owner) := by
  cases present with
  | true => exact prepares_pure ()
  | false => exact Resolver.sends_throw

theorem prepares_ask {q : Request} (plain : q.window? = none) : Prepares max (Resolver.ask q) :=
  Resolver.sends_ask (fun w same => by rw [plain] at same; cases same) fun _ _ _ => trivial

theorem prepares_located {kind : Kind} {id path : Option String} {f : Locator → Resolver String}
    (byId : ∀ i, f (.id i) = pure i) (byPath : ∀ p, Prepares max (f (.path p))) :
    Prepares max (Resolver.ofExcept (locate kind id path) >>= f) := by
  refine (prepares_ofExcept _).bind fun locator => ?_
  cases locator with
  | id i => exact byId i ▸ prepares_pure i
  | path p => exact byPath p

theorem prepares_groupId (id path : Option String) : Prepares max (groupId id path) :=
  prepares_located (fun _ => rfl) fun _ => (prepares_ask rfl).bind fun g => prepares_pure g.id

theorem prepares_workspaceId (id path : Option String) : Prepares max (workspaceId id path) :=
  prepares_located (fun _ => rfl) fun _ => (prepares_ask rfl).bind fun w => prepares_pure w.id

end Parts

section Listings

variable {α : Type} [Listed α]

def Setup.Sound (s : Setup) (max : Int) : Prop :=
  ∃ settings, s.settings = some settings ∧ settings.pages.maxSize = max ∧
    0 ≤ settings.pages.defaultSize ∧ settings.pages.defaultSize ≤ max

theorem sends_listing (sound : s.Sound max) (args : Arguments) :
    (listing s args : Resolver (Listing α)).Sends (Request.Capped max) fun l =>
      0 ≤ l.window.size ∧ l.window.size ≤ max := by
  obtain ⟨settings, given, rfl, allowed⟩ := sound
  have read : s.needSettings.Sends (Request.Capped settings.pages.maxSize) (· = settings) :=
    Resolver.Sends.bind (prepares_need _ _ _) fun _ _ => Resolver.sends_pure (by rw [given]; rfl)
  refine read.bind fun settings' same => ?_
  subst same
  dsimp only
  split
  · exact Resolver.sends_throw
  · next w page =>
    exact Resolver.sends_pure ((PageRequest.window_capped_iff page).mpr (.inr (.inr allowed)))

theorem keeps_ask {kind : Kind} {wrap : α → Entity} {l : Listing α} {q : Request} {f : q.Reply → Page α}
    (capped : 0 ≤ l.window.size ∧ l.window.size ≤ max) (window : q.window? = some l.window)
    (given : ∀ (s : Service) r, (s.perform q).1 = .ok r → ∃ items, l.page items = .ok (f r)) :
    Keeps max (Resolver.ask q >>= fun r => pure (connect kind wrap l (f r))) := by
  have asked : (Resolver.ask q).Sends (Request.Capped max) fun r => ((f r).items.length : Int) ≤ max := by
    refine Resolver.sends_ask (fun w same => ?_) fun s r answer => ?_
    · cases window.symm.trans same
      exact capped
    · obtain ⟨s', performed⟩ := Service.perform_of_answer answer
      obtain ⟨items, page⟩ := given s' r performed
      exact (Page.ofSorted_length_le capped.1 page).trans capped.2
  refine asked.bind fun r length => Resolver.sends_pure fun kind c same => ?_
  cases same
  simpa [Connection.ofPage, Connection.ofEdges] using length

theorem keeps_page (sound : s.Sound max) {args : Arguments} {kind : Kind} {wrap : α → Entity}
    {q : Listing α → Request} {f : (l : Listing α) → (q l).Reply → Page α}
    (window : ∀ l, (q l).window? = some l.window)
    (given : ∀ l (s : Service) r, (s.perform (q l)).1 = .ok r → ∃ items, l.page items = .ok (f l r)) :
    Keeps max (listing s args >>= fun l => s.needCatalog >>= fun _ => Resolver.ask (q l) >>= fun r =>
      pure (connect kind wrap l (f l r))) :=
  (sends_listing sound args).bind fun l capped => (prepares_need _ _ _).keeps fun _ =>
    keeps_ask capped (window l) (given l)

end Listings

section Links

theorem keeps_linkTo (kind : Kind) (type : EntityType) (id : String) : Keeps max (linkTo s kind type id) :=
  (prepares_need _ _ _).keeps fun _ => Resolver.sends_require.bind fun e _ => keeps_entity e

theorem keeps_linkTo? (kind : Kind) (type : EntityType) (id : String) :
    Keeps max (linkTo? s kind type id) := by
  refine (prepares_need _ _ _).keeps fun _ => Resolver.sends_load.bind fun e _ => ?_
  cases e with
  | none => exact keeps_nothing
  | some e => exact keeps_entity e

theorem keeps_unionTo? (union : String) {find : Resolver (Option Entity)} (looks : Looks find) :
    Keeps max (unionTo? s union find) := by
  have finds : find.Sends (Request.Capped max) fun _ => True := by
    cases looks with
    | load _ id => exact Resolver.sends_load
    | none => exact Resolver.sends_pure trivial
  refine (prepares_need _ _ _).keeps fun _ => finds.bind fun e _ => ?_
  cases e with
  | none => exact keeps_nothing
  | some e => exact keeps_union union (by simp)

theorem keeps_member (m : NamespaceMembership) : Keeps max (Link.member s m) :=
  (prepares_need _ _ _).keeps fun _ => (prepares_ofExcept _).keeps fun _ =>
    Resolver.sends_require.bind fun _ _ => keeps_union "Member" (by simp)

theorem keeps_detail (e : ActivityEvent) : Keeps max (Link.detail e) := by
  unfold Link.detail
  split
  · exact keeps_nothing
  · split
    · exact Resolver.sends_throw
    · exact keeps_union _ (by simp)

theorem keeps_link (sound : s.Sound max) (e : Entity) (field : String) (args : Arguments) :
    Keeps max (link s e field args) := by
  unfold link
  split
  · exact keeps_linkTo _ _ _
  · unfold Link.parent
    split
    · exact keeps_nothing
    · exact keeps_linkTo? _ _ _
  · exact keeps_page sound (fun _ => rfl) fun _ _ _ h => ⟨_, h⟩
  · exact keeps_linkTo _ _ _
  · exact keeps_page sound (fun _ => rfl) fun _ _ _ h => ⟨_, h⟩
  · exact keeps_linkTo _ _ _
  · exact keeps_member _
  · exact keeps_linkTo _ _ _
  · exact keeps_linkTo _ _ _
  · exact keeps_page sound (fun _ => rfl) fun _ _ _ h => ⟨_, h⟩
  · exact keeps_linkTo _ _ _
  · exact keeps_linkTo _ _ _
  · exact keeps_linkTo _ _ _
  · exact keeps_unionTo? _ (looks_initiator _)
  · exact keeps_unionTo? _ (looks_target _ _)
  · exact keeps_detail _
  · exact keeps_nothing

end Links

section Queries

theorem keeps_node_query (args : Arguments) : Keeps max (Query.node s args) := by
  unfold Query.node
  split
  · exact Resolver.sends_throw
  · exact keeps_unionTo? _ (looks_node _ _)

theorem keeps_located {kind : Kind} {type : EntityType} {id path : Option String} {q : String → Request}
    {f : (path : String) → (q path).Reply → Entity} (plain : ∀ path, (q path).window? = none) :
    Keeps max (Resolver.ofExcept (locate kind id path) >>= fun
      | .id id => linkTo s kind type id
      | .path path => Resolver.ask (q path) >>= fun r => pure (.node (.entity (f path r)))) := by
  refine (prepares_ofExcept _).keeps fun locator => ?_
  cases locator with
  | id id => exact keeps_linkTo kind type id
  | path path => exact (prepares_ask (plain path)).keeps fun r => keeps_entity _

theorem keeps_byId {args : Arguments} (kind : Kind) (type : EntityType) :
    Keeps max (Resolver.ofExcept (decodeId kind (args.id "id")) >>= fun id => linkTo s kind type id) :=
  (prepares_ofExcept _).keeps fun id => keeps_linkTo kind type id

theorem keeps_memberships (args : Arguments) : Keeps max (Query.namespaceMemberships s args) :=
  (prepares_need _ _ _).keeps fun _ => (prepares_ask rfl).keeps fun _ => keeps_nodes (by simp)

theorem keeps_role (args : Arguments) : Keeps max (Query.role s args) := by
  unfold Query.role
  split
  · exact (prepares_ofExcept _).keeps fun id => keeps_linkTo _ _ id
  · exact (prepares_need _ _ _).keeps fun _ => (prepares_ask rfl).keeps fun _ => keeps_entity _
  · exact Resolver.sends_throw

theorem keeps_runs (sound : s.Sound max) (args : Arguments) : Keeps max (Query.runs s args) := by
  refine (prepares_need _ _ _).keeps fun _ => (sends_listing sound args).bind fun l capped => ?_
  have ask : ∀ workspace, Keeps max (Resolver.ask (.runs l workspace) >>= fun p =>
      pure (connect .run .run l p)) :=
    fun _ => keeps_ask capped rfl fun _ _ h => ⟨_, h⟩
  split
  · exact ask none
  · exact Prepares.keeps ((prepares_workspaceId _ _).bind fun id => prepares_pure (some id)) ask

theorem keeps_activityEvents (sound : s.Sound max) (args : Arguments) :
    Keeps max (Query.activityEvents s args) :=
  (sends_listing sound args).bind fun _ capped => (prepares_ofExcept _).keeps fun _ =>
    (prepares_ofExcept _).keeps fun _ => (prepares_need _ _ _).keeps fun _ =>
      keeps_ask capped rfl fun _ _ h => ⟨_, h⟩

theorem keeps_query (sound : s.Sound max) (name : String) (args : Arguments) :
    Keeps max (Query.field s name args) := by
  unfold Query.field
  split
  · exact keeps_node_query args
  · exact keeps_page sound (fun _ => rfl) fun _ _ _ h => ⟨_, h⟩
  · exact keeps_page sound (fun _ => rfl) fun _ _ _ h => ⟨_, h⟩
  · exact keeps_page sound (fun _ => rfl) fun _ _ _ h => ⟨_, h⟩
  · exact (prepares_need _ _ _).keeps fun _ => keeps_located fun _ => rfl
  · exact keeps_page sound (fun _ => rfl) fun _ _ _ h => ⟨_, h⟩
  · exact (prepares_need _ _ _).keeps fun _ => keeps_located fun _ => rfl
  · exact keeps_memberships args
  · exact keeps_page sound (fun _ => rfl) fun _ _ _ h => ⟨_, h⟩
  · exact keeps_page sound (fun _ => rfl) fun _ _ _ h => ⟨_, h⟩
  · exact keeps_role args
  · exact keeps_runs sound args
  · exact keeps_byId .run .run
  · exact keeps_page sound (fun _ => rfl) fun _ _ _ h => ⟨_, h⟩
  · exact keeps_byId .terraformModule .terraformModule
  · exact keeps_page sound (fun _ => rfl) fun _ _ _ h => ⟨_, h⟩
  · exact keeps_page sound (fun _ => rfl) fun _ _ _ h => ⟨_, h⟩
  · exact keeps_activityEvents sound args
  · exact keeps_nothing

end Queries

section Mutations

theorem prepares_roleNamed (name : String) : Prepares max (Mutation.roleNamed name) :=
  Resolver.Sends.bind (Resolver.Sends.attempt (prepares_ask rfl)) fun _ _ => prepares_ofExcept _

theorem keeps_perform {α : Type} {kind : Kind} {wrap : α → Entity} {input : Arguments}
    {write : Resolver α} (h : Prepares max write) :
    Keeps max (Mutation.perform s kind wrap input write) :=
  (prepares_need _ _ _).keeps fun _ => Resolver.Sends.bind h.attempt fun _ _ =>
    (prepares_ofExcept _).keeps fun _ => keeps_node (by simp)

theorem keeps_mutation (name : String) (args : Arguments) : Keeps max (Mutation.field s name args) := by
  unfold Mutation.field
  dsimp only
  split
  · exact keeps_perform ((prepares_groupId _ _).bind fun _ => prepares_ask rfl)
  · exact keeps_perform ((prepares_groupId _ _).bind fun _ => prepares_ask rfl)
  · exact keeps_perform ((prepares_workspaceId _ _).bind fun _ => prepares_ask rfl)
  · exact keeps_perform ((prepares_workspaceId _ _).bind fun _ => prepares_ask rfl)
  · exact keeps_perform ((prepares_ofExcept _).bind fun _ => (prepares_roleNamed _).bind fun _ =>
      prepares_ask rfl)
  · exact keeps_perform ((prepares_ofExcept _).bind fun _ => (prepares_roleNamed _).bind fun _ =>
      prepares_ask rfl)
  · exact keeps_perform ((prepares_ofExcept _).bind fun _ => prepares_ask rfl)
  · exact keeps_perform ((prepares_workspaceId _ _).bind fun _ => prepares_ask rfl)
  · exact keeps_perform ((prepares_ofExcept _).bind fun _ => prepares_ask rfl)
  · exact keeps_perform ((prepares_ofExcept _).bind fun _ => prepares_ask rfl)
  · exact keeps_perform ((prepares_ofExcept _).bind fun _ => prepares_ask rfl)
  · exact keeps_nothing

end Mutations

theorem keeps_entityField (sound : s.Sound max) (e : Entity) (name : String) (args : Arguments) :
    Keeps max (entityField s e name args) := by
  unfold entityField
  split
  · exact keeps_node (by simp)
  · split
    · exact keeps_value _
    · exact keeps_link sound e name args

theorem keeps_payloadField (p : Payload) (name : String) : Keeps max (payloadField p name) := by
  unfold payloadField
  split_ifs
  · exact keeps_value _
  · exact keeps_nodes (by simp)
  · split
    · exact keeps_nothing
    · exact keeps_entity _
  · exact keeps_nothing

theorem keeps_field (sound : s.Sound max) (n : Node) (name : String) (args : Arguments) :
    Keeps max ((schema s).resolve n name args) := by
  simp only [schema]
  cases n with
  | query => exact keeps_query sound name args
  | mutation => exact keeps_mutation name args
  | entity e => exact keeps_entityField sound e name args
  | eventRun r =>
    simp only [resolve]
    unfold eventRunField
    split
    · exact Resolver.sends_require.bind fun e _ => keeps_entity e
    · exact keeps_entityField sound (.run r) name args
  | runEvent e =>
    simp only [resolve]
    unfold runEventField
    split
    · exact keeps_value _
    · exact keeps_node (by simp)
    · exact keeps_nothing
  | connection kind c =>
    simp only [resolve]
    unfold connectionField
    split
    · exact keeps_nodes (by simp)
    · exact keeps_node (by simp)
    · exact keeps_value _
    · exact keeps_nothing
  | edge kind e =>
    simp only [resolve]
    unfold edgeField
    split
    · exact keeps_value _
    · exact keeps_entity _
    · exact keeps_nothing
  | payload p => exact keeps_payloadField p name
  | _ => exact keeps_value _

/-- Windows and connections keep to the maximum of the settings as far as the default size does. A window has
an allowed size if and only if its request gives a size or the default is one that a request could give;
then its page is no larger and its end is counted exactly in 64 bits. With such a default no field asks for
a larger window, or leads to a connection with more edges. -/
theorem page_size_capped (settings : Settings) (word : settings.pages.maxSize < 2147483648) :
    (∀ {α : Type} [Listed α] (o : Order α) (r : PageRequest) (w : Window),
      r.window o settings.pages = .ok w →
      (0 ≤ w.size ∧ w.size ≤ settings.pages.maxSize ↔ r.Sized settings.pages) ∧
      (r.Sized settings.pages → ∀ items : List α, items.length < 9223372036854775808 →
        (∀ start ≤ items.length, (Page.word64 (start + w.size) : Int) = start + w.size) ∧
        ∀ p, Page.ofList o w items = .ok p → (p.items.length : Int) ≤ settings.pages.maxSize)) ∧
    (0 ≤ settings.pages.defaultSize → settings.pages.defaultSize ≤ settings.pages.maxSize →
      ∀ s : Setup, s.settings = some settings → ∀ (n : Node) (name : String) (args : Arguments) xs out,
        ((schema s).resolve n name args).run.Takes xs out →
        (∀ x ∈ xs, ∀ w, x.request.window? = some w →
          0 ≤ w.size ∧ w.size ≤ settings.pages.maxSize) ∧
        ∀ outcome, out = .ok outcome → outcome.Leads fun n =>
          ∀ kind c, n = .connection kind c → (c.edges.length : Int) ≤ settings.pages.maxSize) := by
  refine ⟨fun o r w page => ?_, fun nonneg le s given n name args xs out course => ?_⟩
  · have capped := PageRequest.window_capped_iff page
    refine ⟨capped, fun sized items fits => ?_⟩
    obtain ⟨nonneg, le⟩ := capped.mpr sized
    refine ⟨fun start inside => ?_, fun p shown => (Page.ofSorted_length_le nonneg shown).trans le⟩
    unfold Page.word64
    omega
  · exact keeps_field ⟨settings, given, rfl, nonneg, le⟩ n name args xs out course

def threeRoleService : Service :=
  .new ⟨[], [], [], [], [], [], threeRoles, [], [], [], [], [], []⟩

theorem page_size_capped_roles :
    let plan := ((schema (.complete .standard)).resolve .query "roles" [("first", .int 2)]).run
    (plan.exchanges threeRoleService).map (·.request.window?) = [some (.forward 2 none)] ∧
    (∀ x ∈ plan.exchanges threeRoleService, ∀ w, x.request.window? = some w →
      0 ≤ w.size ∧ w.size ≤ 100) ∧
    ∀ start ≤ threeRoles.length, (Page.word64 (start + 2) : Int) = start + 2 := by
  intro plan
  obtain ⟨windows, fields⟩ := page_size_capped .standard (by decide)
  have window : (⟨some 2, none, none, none⟩ : PageRequest).window (Listed.standard : Order Role) .standard =
      .ok (.forward 2 none) := rfl
  obtain ⟨-, counted⟩ := windows Listed.standard _ _ window
  have course := Plan.takes_carryOut plan threeRoleService
  exact ⟨rfl, (fields (by decide) (by decide) (.complete .standard) rfl .query _ _ _ _ course).1,
    (counted (.inl rfl) threeRoles (by decide)).1⟩

/-- Settings may have a default size beyond the maximum, and then so many are shown; or one below zero, which
stands for a count so large that to count on from the first item takes more than 64 bits. -/
theorem default_size_uncapped :
    (∃ settings w p,
      Settings.read? "\x7b\"pagination\": \x7b\"default_page_size\": 3, \"max_page_size\": 2\x7d\x7d" =
        some settings ∧
      (⟨none, none, none, none⟩ : PageRequest).window (Listed.standard : Order Role) settings.pages = .ok w ∧
      settings.pages.maxSize < w.size ∧
      Page.ofList Listed.standard w threeRoles = .ok p ∧ settings.pages.maxSize < p.items.length) ∧
    ∃ settings w,
      Settings.read? "\x7b\"pagination\": \x7b\"default_page_size\": -1\x7d\x7d" = some settings ∧
      (⟨none, none, none, none⟩ : PageRequest).window (Listed.standard : Order Role) settings.pages = .ok w ∧
      w.size < 0 ∧ 18446744073709551616 ≤ 1 + Page.word64 w.size := by
  have length : ((Listed.standard : Order Role).sort threeRoles).length = 3 :=
    (Order.sort_perm _ threeRoles).length_eq
  refine ⟨⟨⟨⟨3, 2⟩, .standard, .standard⟩, .forward 3 none, _, by decide +kernel, rfl, by decide, rfl, ?_⟩,
    ⟨⟨-1, 100⟩, .standard, .standard⟩, .forward (-1) none, by decide +kernel, rfl, by decide, by decide⟩
  rw [Page.cut_length (Nat.min_le_left _ _), length]
  decide

end Api

end InfraGraph

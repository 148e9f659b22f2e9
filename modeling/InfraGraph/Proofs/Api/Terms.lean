import InfraGraph.Api.Operation
import InfraGraph.Proofs.Api.Arguments
import InfraGraph.Proofs.Graph.Terms

/-!
The schema on terms. With terms that allow for bad input, for missing entities, and for what the parts and
the stored data may lack, every field of every node that a query or a mutation comes to keeps to them. So do
all queries and mutations.
-/

namespace InfraGraph.Api

open InfraGraph.Graph
open Resolver (meets_ofExcept meets_pure meets_throw meets_ask meets_read meets_load meets_require)

/-- A problem that tells of a refusal. -/
def Tells (t : Terms) (p : Problem) : Prop :=
  ∃ c, t.refuses c ∧ Fault.problemKind? c = some p.kind

/-- What is known of the nodes that a query or a mutation comes to. The nodes of a feed are not among them. -/
def Node.Fits (t : Terms) : Node → Prop
  | .entity e => t.fine e
  | .eventRun _ => False
  | .runEvent _ => False
  | .connection _ c => ∀ edge ∈ c.edges, t.fine edge.node
  | .edge _ e => t.fine e.node
  | .payload p => (∀ e ∈ p.result, t.fine e) ∧ ∀ problem ∈ p.problems, Tells t problem
  | .problem p => Tells t p
  | _ => True

/-- Terms that allow for all that may go wrong with the given parts. -/
structure Suits (s : Setup) (t : Terms) : Prop where
  catalog : s.catalog = false → t.fails .internal
  settings : s.settings.isSome = false → t.fails .internal
  loaders : s.loaders = false → t.fails .internal
  input : t.fails .invalidInput
  missing : t.fails .notFound
  refused : t.refuses .invalidInput
  unmended : ∀ c, t.refuses c → Fault.problemKind? c = none → t.fails c
  member : ∀ m f, t.fine (.namespaceMembership m) → Link.memberOf m = .error f → t.fails f.code
  detail : ∀ e raw r, t.fine (.activityEvent e) → e.payload = some raw →
    Detail.decode e.action e.targetType raw = .error r → t.fails r.code

abbrev Fitting (t : Terms) (r : Resolver (Outcome Node)) : Prop :=
  r.Meets t t.fails (Outcome.Leads (Node.Fits t))

section Inputs

variable {t : Terms} {codes : FaultCode → Prop}

theorem meets_need {present : Bool} (absent : present = false → codes .internal) (part owner : String) :
    (Setup.need present part owner).Meets t codes fun _ => True := by
  unfold Setup.need
  cases present with
  | true => exact meets_pure trivial
  | false => exact meets_throw (absent rfl)

theorem ends_decodeId (input : codes .invalidInput) (kind : Kind) (text : String) :
    Ends codes (fun _ => True) (decodeId kind text) := by
  unfold decodeId
  cases GlobalId.decodeAs kind text with
  | error f => exact input
  | ok id => trivial

theorem ends_decodeId? (input : codes .invalidInput) (kind : Kind) (text : Option String) :
    Ends codes (fun _ => True) (decodeId? kind text) := by
  cases text with
  | none => trivial
  | some text => exact ends_map (ends_decodeId input kind text) fun _ h => h

theorem ends_locate (input : codes .invalidInput) (kind : Kind) (id path : Option String) :
    Ends codes (fun _ => True) (locate kind id path) := by
  unfold locate
  rcases id with _ | text <;> rcases path with _ | path
  · exact input
  · trivial
  · have decoded := ends_decodeId input kind text
    dsimp only
    split
    · next refused => exact (refused ▸ decoded :)
    · trivial
  · exact input

theorem ends_memberOf (input : codes .invalidInput) (user account team : Option String) :
    Ends codes (fun _ => True) (Mutation.memberOf user account team) := by
  have alone (kind : Kind) (text field : String) (wrap : String → Member) :
      Ends codes (fun _ => True) (((decodeId kind text).mapError (·.onField field)).map wrap) :=
    ends_map (ends_onField (ends_decodeId input kind text) field) fun _ h => h
  unfold Mutation.memberOf
  split
  · exact alone _ _ _ _
  · exact alone _ _ _ _
  · exact alone _ _ _ _
  · exact input

end Inputs

variable {s : Setup} {t : Terms}

theorem fitting_nothing : Fitting t nothing :=
  meets_pure trivial

theorem fitting_value (v : Value) : Fitting t (pure (.value v)) :=
  meets_pure trivial

theorem fitting_entity {e : Entity} (fine : t.fine e) : Fitting t (pure (.node (.entity e))) :=
  meets_pure fine

section Listings

variable {α : Type} [Listed α]

theorem meets_listing (suits : Suits s t) (args : Arguments) :
    (listing s args : Resolver (Listing α)).Meets t t.fails fun _ => True := by
  have settings : s.needSettings.Meets t t.fails fun _ => True :=
    (meets_need suits.settings _ _).bind fun _ _ => meets_pure trivial
  refine settings.bind fun settings _ => ?_
  dsimp only
  split
  · next r refused =>
    refine meets_throw ?_
    rw [show r.fault.code = r.code from rfl, code_of_window refused]
    exact suits.input
  · exact meets_pure trivial

theorem leads_connect {kind : Kind} {wrap : α → Entity} {l : Listing α} {p : Page α}
    (fine : ∀ e ∈ p.items.map wrap, t.fine e) : (connect kind wrap l p).Leads (Node.Fits t) := by
  intro edge mem
  obtain ⟨a, here, rfl⟩ := List.mem_map.mp mem
  exact fine _ (List.mem_map_of_mem here)

theorem fitting_ask {kind : Kind} {wrap : α → Entity} {l : Listing α} {q : Request} (read : q.isRead)
    {page : q.Reply → Page α} (shown : ∀ r, q.shown r = (page r).items.map wrap) :
    Fitting t (Resolver.ask q >>= fun r => pure (connect kind wrap l (page r))) :=
  (meets_read read).bind fun r fine => meets_pure (leads_connect (shown r ▸ fine))

theorem fitting_page (suits : Suits s t) {args : Arguments} {kind : Kind} {wrap : α → Entity}
    {q : Listing α → Request} (read : ∀ l, (q l).isRead) {page : (l : Listing α) → (q l).Reply → Page α}
    (shown : ∀ l r, (q l).shown r = (page l r).items.map wrap) :
    Fitting t (listing s args >>= fun l => s.needCatalog >>= fun _ => Resolver.ask (q l) >>= fun r =>
      pure (connect kind wrap l (page l r))) :=
  (meets_listing suits args).bind fun l _ =>
    (meets_need suits.catalog _ _).bind fun _ _ =>
      fitting_ask (read l) (shown l)

end Listings

section Links

variable {kind : Kind} {type : EntityType}

theorem fitting_linkTo (suits : Suits s t) (loadable : Loadable kind type) (id : String) :
    Fitting t (linkTo s kind type id) :=
  (meets_need suits.loaders _ _).bind fun _ _ =>
    (meets_require id loadable suits.missing).bind fun _ fine => fitting_entity fine

theorem fitting_linkTo? (suits : Suits s t) (loadable : Loadable kind type) (id : String) :
    Fitting t (linkTo? s kind type id) := by
  refine (meets_need suits.loaders _ _).bind fun _ _ =>
    (meets_load id loadable).bind fun found fine => ?_
  cases found with
  | none => exact fitting_nothing
  | some e => exact fitting_entity (fine e rfl)

theorem fitting_unionTo? (suits : Suits s t) (union : String) {find : Resolver (Option Entity)}
    (looks : Looks find) : Fitting t (unionTo? s union find) := by
  have finds : find.Meets t t.fails fun found => ∀ e ∈ found, t.fine e := by
    cases looks with
    | load loadable id => exact meets_load id loadable
    | none => exact meets_pure (by simp)
  refine (meets_need suits.loaders _ _).bind fun _ _ => finds.bind fun found fine => ?_
  cases found with
  | none => exact fitting_nothing
  | some e => exact meets_pure (fine e rfl)

theorem fitting_member (suits : Suits s t) {m : NamespaceMembership}
    (fine : t.fine (.namespaceMembership m)) : Fitting t (Link.member s m) := by
  have member : Ends t.fails (fun x => Loadable x.1 x.2.1) (Link.memberOf m) := by
    cases named : Link.memberOf m with
    | error f => exact suits.member m f fine named
    | ok x => exact memberOf_loadable named
  refine (meets_need suits.loaders _ _).bind fun _ _ =>
    (meets_ofExcept member).bind fun x loadable => ?_
  exact (meets_require x.2.2 loadable suits.missing).bind fun _ fine => meets_pure fine

theorem fitting_detail (suits : Suits s t) {e : ActivityEvent} (fine : t.fine (.activityEvent e)) :
    Fitting t (Link.detail e) := by
  unfold Link.detail
  split
  · exact fitting_nothing
  · next raw given =>
    split
    · next r bad => exact meets_throw (suits.detail e raw r fine given bad)
    · exact meets_pure trivial

theorem fitting_link (suits : Suits s t) {e : Entity} (fine : t.fine e) (field : String)
    (args : Arguments) : Fitting t (link s e field args) := by
  have leads {kind : Kind} {type : EntityType} (loadable : Loadable kind type) (id : String) :
      Fitting t (linkTo s kind type id) := fitting_linkTo suits loadable id
  unfold link
  split
  · exact leads (by decide) _
  · unfold Link.parent
    split
    · exact fitting_nothing
    · exact fitting_linkTo? suits (by decide) _
  · exact fitting_page suits (fun _ => rfl) fun _ _ => rfl
  · exact leads (by decide) _
  · exact fitting_page suits (fun _ => rfl) fun _ _ => rfl
  · exact leads (by decide) _
  · exact fitting_member suits fine
  · exact leads (by decide) _
  · exact leads (by decide) _
  · exact fitting_page suits (fun _ => rfl) fun _ _ => rfl
  · exact leads (by decide) _
  · exact leads (by decide) _
  · exact leads (by decide) _
  · exact fitting_unionTo? suits _ (looks_initiator _)
  · exact fitting_unionTo? suits _ (looks_target _ _)
  · exact fitting_detail suits fine
  · exact fitting_nothing

end Links

section Queries

theorem fitting_node (suits : Suits s t) (args : Arguments) : Fitting t (Query.node s args) := by
  unfold Query.node
  split
  · exact meets_throw suits.input
  · exact fitting_unionTo? suits _ (looks_node _ _)

theorem fitting_located (suits : Suits s t) {kind : Kind} {type : EntityType}
    (loadable : Loadable kind type) {id path : Option String} {q : String → Request} (read : ∀ path, (q path).isRead)
    {f : (path : String) → (q path).Reply → Entity} (shown : ∀ path r, (q path).shown r = [f path r]) :
    Fitting t (s.needCatalog >>= fun _ => Resolver.ofExcept (locate kind id path) >>= fun
      | .id id => linkTo s kind type id
      | .path path => Resolver.ask (q path) >>= fun r => pure (.node (.entity (f path r)))) := by
  refine (meets_need suits.catalog _ _).bind fun _ _ =>
    (meets_ofExcept (ends_locate suits.input kind id path)).bind fun locator _ => ?_
  cases locator with
  | id id => exact fitting_linkTo suits loadable id
  | path path =>
    exact (meets_read (read path)).bind fun r fine =>
      fitting_entity (fine _ (by rw [shown]; exact List.mem_singleton.mpr rfl))

theorem fitting_byId (suits : Suits s t) {kind : Kind} {type : EntityType} (loadable : Loadable kind type)
    (text : String) :
    Fitting t (Resolver.ofExcept (decodeId kind text) >>= fun id => linkTo s kind type id) :=
  (meets_ofExcept (ends_decodeId suits.input kind text)).bind fun id _ => fitting_linkTo suits loadable id

theorem fitting_memberships (suits : Suits s t) (args : Arguments) :
    Fitting t (Query.namespaceMemberships s args) := by
  refine (meets_need suits.catalog _ _).bind fun _ _ =>
    (meets_read rfl).bind fun ms fine => meets_pure fun n mem => ?_
  obtain ⟨m, here, rfl⟩ := List.mem_map.mp mem
  exact fine _ (List.mem_map_of_mem here)

theorem fitting_role (suits : Suits s t) (args : Arguments) : Fitting t (Query.role s args) := by
  unfold Query.role
  split
  · exact fitting_byId suits (by decide) _
  · refine (meets_need suits.catalog _ _).bind fun _ _ =>
      (meets_read rfl).bind fun r fine => fitting_entity (fine _ (List.mem_singleton.mpr rfl))
  · exact meets_throw suits.input

theorem meets_workspaceId {codes : FaultCode → Prop} {id path : Option String} (input : codes .invalidInput)
    (read : ∀ path, (Resolver.ask (.workspaceAt path)).Meets t codes fun w =>
      ∀ e ∈ [Entity.workspace w], t.fine e) : (workspaceId id path).Meets t codes fun _ => True := by
  refine (meets_ofExcept (ends_locate input .workspace id path)).bind fun locator _ => ?_
  cases locator with
  | id id => exact meets_pure trivial
  | path path => exact (read path).bind fun _ _ => meets_pure trivial

theorem fitting_runs (suits : Suits s t) (args : Arguments) : Fitting t (Query.runs s args) := by
  refine (meets_need suits.catalog _ _).bind fun _ _ =>
    (meets_listing suits args).bind fun l _ => ?_
  have ask (workspace : Option String) : Fitting t (Resolver.ask (.runs l workspace) >>= fun p =>
      pure (connect .run .run l p)) := fitting_ask rfl fun _ => rfl
  split
  · exact ask none
  · have workspace : (workspaceId (args.id? "workspaceId") (args.text? "workspacePath")).Meets t t.fails
        fun _ => True :=
      meets_workspaceId suits.input fun path => meets_read (q := .workspaceAt path) rfl
    have given : (some <$> workspaceId (args.id? "workspaceId") (args.text? "workspacePath")).Meets t t.fails
        fun _ => True := workspace.bind fun _ _ => meets_pure trivial
    exact given.bind fun workspace _ => ask workspace

theorem fitting_activityEvents (suits : Suits s t) (args : Arguments) :
    Fitting t (Query.activityEvents s args) :=
  (meets_listing suits args).bind fun _ _ =>
    (meets_ofExcept (ends_decodeId? suits.input _ _)).bind fun _ _ =>
      (meets_ofExcept (ends_decodeId? suits.input _ _)).bind fun _ _ =>
        (meets_need suits.catalog _ _).bind fun _ _ =>
          fitting_ask rfl fun _ => rfl

theorem fitting_query (suits : Suits s t) (name : String) (args : Arguments) :
    Fitting t (Query.field s name args) := by
  unfold Query.field
  split
  · exact fitting_node suits args
  · exact fitting_page suits (fun _ => rfl) fun _ _ => rfl
  · exact fitting_page suits (fun _ => rfl) fun _ _ => rfl
  · exact fitting_page suits (fun _ => rfl) fun _ _ => rfl
  · exact fitting_located suits (by decide) (fun _ => rfl) fun _ _ => rfl
  · exact fitting_page suits (fun _ => rfl) fun _ _ => rfl
  · exact fitting_located suits (by decide) (fun _ => rfl) fun _ _ => rfl
  · exact fitting_memberships suits args
  · exact fitting_page suits (fun _ => rfl) fun _ _ => rfl
  · exact fitting_page suits (fun _ => rfl) fun _ _ => rfl
  · exact fitting_role suits args
  · exact fitting_runs suits args
  · exact fitting_byId suits (by decide) _
  · exact fitting_page suits (fun _ => rfl) fun _ _ => rfl
  · exact fitting_byId suits (by decide) _
  · exact fitting_page suits (fun _ => rfl) fun _ _ => rfl
  · exact fitting_page suits (fun _ => rfl) fun _ _ => rfl
  · exact fitting_activityEvents suits args
  · exact fitting_nothing

end Queries

section Mutations

theorem meets_groupId (suits : Suits s t) (id path : Option String) :
    (groupId id path).Meets t t.refuses fun _ => True := by
  refine (meets_ofExcept (ends_locate suits.refused .group id path)).bind fun locator _ => ?_
  cases locator with
  | id id => exact meets_pure trivial
  | path path => exact (meets_ask _).bind fun _ _ => meets_pure trivial

theorem meets_decoded (suits : Suits s t) (kind : Kind) (text : String) :
    (Resolver.ofExcept (decodeId kind text)).Meets t t.refuses fun _ => True :=
  meets_ofExcept (ends_decodeId suits.refused kind text)

theorem meets_roleNamed (name : String) :
    (Mutation.roleNamed name).Meets t t.refuses fun r => ∀ e ∈ [Entity.role r], t.fine e :=
  (meets_ask (.roleNamed name)).attempt.bind fun _ ends => meets_ofExcept (ends_onField ends "role")

theorem ends_settle (suits : Suits s t) {α : Type} {kind : Kind} {wrap : α → Entity}
    (clientMutationId : Option String) {out : Except Fault α}
    (ends : Ends t.refuses (fun a => ∀ e ∈ [wrap a], t.fine e) out) :
    Ends t.fails (fun p => Node.Fits t (.payload p)) (Mutation.settle kind wrap clientMutationId out) := by
  cases out with
  | ok a =>
    have fine : ∀ e ∈ [wrap a], t.fine e := ends
    exact ⟨by simpa using fine, by simp⟩
  | error f =>
    unfold Mutation.settle
    dsimp only
    split
    · next p told =>
      obtain ⟨kind, known, rfl⟩ := Option.map_eq_some_iff.mp told
      exact ⟨by simp, by simpa using ⟨f.code, ends, known⟩⟩
    · next untold => exact suits.unmended f.code ends (Option.map_eq_none_iff.mp untold)

theorem fitting_perform (suits : Suits s t) {α : Type} {kind : Kind} {wrap : α → Entity}
    {input : Arguments} {write : Resolver α}
    (meets : write.Meets t t.refuses fun a => ∀ e ∈ [wrap a], t.fine e) :
    Fitting t (Mutation.perform s kind wrap input write) :=
  (meets_need suits.catalog _ _).bind fun _ _ =>
    meets.attempt.bind fun _ ends =>
      (meets_ofExcept (ends_settle suits _ ends)).bind fun _ fits => meets_pure fits

theorem fitting_mutation (suits : Suits s t) (name : String) (args : Arguments) :
    Fitting t (Mutation.field s name args) := by
  have workspace (id path : Option String) : (workspaceId id path).Meets t t.refuses fun _ => True :=
    meets_workspaceId suits.refused fun path => meets_ask (.workspaceAt path)
  unfold Mutation.field
  dsimp only
  split
  · exact fitting_perform suits ((meets_groupId suits _ _).bind fun _ _ => meets_ask _)
  · exact fitting_perform suits ((meets_groupId suits _ _).bind fun _ _ => meets_ask _)
  · exact fitting_perform suits ((workspace _ _).bind fun _ _ => meets_ask _)
  · exact fitting_perform suits ((workspace _ _).bind fun _ _ => meets_ask _)
  · exact fitting_perform suits ((meets_ofExcept (ends_memberOf suits.refused _ _ _)).bind fun _ _ =>
      (meets_roleNamed _).bind fun _ _ => meets_ask _)
  · exact fitting_perform suits ((meets_decoded suits _ _).bind fun _ _ =>
      (meets_roleNamed _).bind fun _ _ => meets_ask _)
  · exact fitting_perform suits ((meets_decoded suits _ _).bind fun _ _ => meets_ask _)
  · exact fitting_perform suits ((workspace _ _).bind fun _ _ => meets_ask _)
  · exact fitting_perform suits ((meets_decoded suits _ _).bind fun _ _ => meets_ask _)
  · exact fitting_perform suits ((meets_decoded suits _ _).bind fun _ _ => meets_ask _)
  · exact fitting_perform suits ((meets_decoded suits _ _).bind fun _ _ => meets_ask _)
  · exact fitting_nothing

end Mutations

section Fields

theorem fitting_entityField (suits : Suits s t) {e : Entity} (fine : t.fine e) (name : String)
    (args : Arguments) : Fitting t (entityField s e name args) := by
  unfold entityField
  split
  · exact meets_pure trivial
  · split
    · exact fitting_value _
    · exact fitting_link suits fine name args

theorem fitting_connectionField {kind : Kind} {c : Connection Entity}
    (fine : ∀ edge ∈ c.edges, t.fine edge.node) (name : String) :
    Fitting t (connectionField kind c name) := by
  unfold connectionField
  split
  · refine meets_pure fun n mem => ?_
    obtain ⟨edge, here, rfl⟩ := List.mem_map.mp mem
    exact fine edge here
  · exact meets_pure trivial
  · exact fitting_value _
  · exact fitting_nothing

theorem fitting_edgeField {e : Edge Entity} (fine : t.fine e.node) (name : String) :
    Fitting t (edgeField e name) := by
  unfold edgeField
  split
  · exact fitting_value _
  · exact fitting_entity fine
  · exact fitting_nothing

theorem fitting_payloadField {p : Payload} (fits : Node.Fits t (.payload p)) (name : String) :
    Fitting t (payloadField p name) := by
  unfold payloadField
  split
  · exact fitting_value _
  · split
    · refine meets_pure fun n mem => ?_
      obtain ⟨problem, here, rfl⟩ := List.mem_map.mp mem
      exact fits.2 problem here
    · split
      · cases given : p.result with
        | none => exact fitting_nothing
        | some e => exact fitting_entity (fits.1 e given)
      · exact fitting_nothing

/-- Every field that a query or a mutation comes to keeps to the terms. -/
theorem schema_meets (suits : Suits s t) : (schema s).Meets t (Node.Fits t) := by
  intro n fits name args
  cases n with
  | query => exact fitting_query suits name args
  | mutation => exact fitting_mutation suits name args
  | entity e => exact fitting_entityField suits fits name args
  | eventRun r => exact absurd fits id
  | runEvent e => exact absurd fits id
  | connection kind c => exact fitting_connectionField fits name
  | edge kind e => exact fitting_edgeField fits name
  | payload p => exact fitting_payloadField fits name
  | metadata m => exact fitting_value _
  | pageInfo p => exact fitting_value _
  | detail d => exact fitting_value _
  | problem p => exact fitting_value _

end Fields

section Operations

inductive Operation
  | query (sels : List Selection)
  | mutation (sels : List Selection)

def Operation.run (s : Setup) (loaders : LoaderSettings) : Operation → Service → Response × Service
  | query sels => InfraGraph.Api.query s loaders sels
  | mutation sels => InfraGraph.Api.mutation s loaders sels

variable {inv : World → Prop} {loaders : LoaderSettings} {service : Service}

theorem mem_ofResult {r : Result} {e : FieldError} : e ∈ (Response.ofResult r).errors ↔ e ∈ r.errors :=
  List.mem_mergeSort

theorem query_meets (suits : Suits s t) (upheld : t.Upheld inv) (now : inv (World.new loaders service))
    (sels : List Selection) : (∃ w, inv w ∧ (query s loaders sels service).2 = w.service) ∧
      ∀ e ∈ (query s loaders sels service).1.errors, t.fails e.fault.code := by
  have work : (Work.object (Work.ofRoot (schema s) sels .query)).Meets t :=
    .object (Work.meets_ofSelections (schema_meets suits) sels _ .query trivial)
  obtain ⟨ended, last⟩ := work.run upheld (Selection.depthAll sels) now
  exact ⟨⟨_, last, rfl⟩, fun e mem => ended.result [] e (mem_ofResult.mp mem)⟩

theorem runInTurn_meets (upheld : t.Upheld inv) (depth : Nat) {us : List Work}
    (each : ∀ u ∈ us, u.Meets t) {w : World} (now : inv w) :
    (∀ u ∈ (runInTurn depth us w).1, u.Meets t) ∧ inv (runInTurn depth us w).2 := by
  induction us generalizing w with
  | nil => exact ⟨by simp [runInTurn], now⟩
  | cons u us ih =>
    obtain ⟨first, next⟩ := (each u (by simp)).run upheld depth now
    obtain ⟨rest, last⟩ := ih (fun u mem => each u (List.mem_cons_of_mem _ mem)) next
    exact ⟨by simpa [runInTurn] using ⟨first, rest⟩, last⟩

theorem mutation_meets (suits : Suits s t) (upheld : t.Upheld inv) (now : inv (World.new loaders service))
    (sels : List Selection) : (∃ w, inv w ∧ (mutation s loaders sels service).2 = w.service) ∧
      ∀ e ∈ (mutation s loaders sels service).1.errors, t.fails e.fault.code := by
  have fields : ∀ u ∈ (Work.ofRoot (schema s) sels .mutation).map (·.2), u.Meets t := by
    intro u mem
    obtain ⟨f, here, rfl⟩ := List.mem_map.mp mem
    exact Work.meets_ofSelections (schema_meets suits) sels _ .mutation trivial f here
  obtain ⟨ended, last⟩ := runInTurn_meets upheld (Selection.depthAll sels) fields now
  exact ⟨⟨_, last, rfl⟩, fun e mem => (Work.Meets.parts ended).result [] e (mem_ofResult.mp mem)⟩

/-- What the fields of a mutation come to, each in its turn, before anything is read in it. -/
def outcomes (s : Setup) (depth : Nat) :
    List RootField → World → List (RootField × Except Fault (Outcome Node))
  | [], _ => []
  | f :: fs, w =>
      (f, ((Mutation.field s f.name f.arguments).run.carryOut w.service).1) ::
        outcomes s depth fs ((f.work s).run depth w).2

/-- The work that is left of a field, once all is read of what it has come to. -/
def RootField.Settles (s : Setup) (depth : Nat) (f : RootField) (o : Except Fault (Outcome Node))
    (t : Work) : Prop :=
  if f.name = "__typename" then t = .value (.text Node.mutation.typeName)
  else ∃ w, t = (Work.run depth (.ofOutcome (schema s) (Work.ofSelections (schema s) f.inner) o) w).1

theorem outcomes_fields (s : Setup) (depth : Nat) (fs : List RootField) (w : World) :
    (outcomes s depth fs w).map (·.1) = fs := by
  induction fs generalizing w with
  | nil => rfl
  | cons f fs ih => rw [outcomes, List.map_cons, ih]

theorem runInTurn_settles (s : Setup) (depth : Nat) (fs : List RootField) (w : World) :
    List.Forall₂ (fun x t => x.1.Settles s depth x.2 t) (outcomes s depth fs w)
      (runInTurn depth (fs.map (·.work s)) w).1 := by
  induction fs generalizing w with
  | nil => exact .nil
  | cons f fs ih =>
    refine .cons ?_ (ih _)
    show f.Settles s depth _ ((f.work s).run depth w).1
    by_cases named : f.name = "__typename"
    · have work : f.work s = .value (.text Node.mutation.typeName) := by simp [RootField.work, named]
      rw [RootField.Settles, if_pos named, work, run_value]
    · rw [RootField.Settles, if_neg named]
      exact ⟨_, congrArg Prod.fst (RootField.run_work named w)⟩

/-- The response to a mutation is put together from what its fields have come to. -/
theorem mutation_settles (s : Setup) (loaders : LoaderSettings) (sels : List Selection) (service : Service) :
    ∃ works, List.Forall₂ (fun x t => x.1.Settles s (Selection.depthAll sels) x.2 t)
        (outcomes s (Selection.depthAll sels) (rootFields sels) (World.new loaders service)) works ∧
      (mutation s loaders sels service).1 =
        .ofResult ((Work.parts (.object ((rootFields sels).map (·.key))) works).result []) := by
  refine ⟨_, runInTurn_settles s (Selection.depthAll sels) (rootFields sels) (World.new loaders service), ?_⟩
  have fields : Work.ofRoot (schema s) sels .mutation = (rootFields sels).map fun f => (f.key, f.work s) :=
    ofSelections_mutation s sels
  simp only [mutation, fields, List.map_map, Function.comp_def]

theorem RootField.work_meets (suits : Suits s t) (f : RootField) : (f.work s).Meets t := by
  unfold RootField.work
  split
  · exact .value _
  · exact .ofPlan (fitting_mutation suits f.name f.arguments) fun o leads =>
      .ofOutcome (Work.meets_ofSelections (schema_meets suits) f.inner) leads

theorem outcomes_meet (suits : Suits s t) (upheld : t.Upheld inv) (depth : Nat) {fs : List RootField}
    {w : World} (now : inv w) :
    ∀ x ∈ outcomes s depth fs w, Ends t.fails (Outcome.Leads (Node.Fits t)) x.2 := by
  induction fs generalizing w with
  | nil => simp [outcomes]
  | cons f fs ih =>
    have plain : (Mutation.field s f.name f.arguments).run.Within _ _ 0 :=
      mutation_within f.name f.arguments
    obtain ⟨first, -⟩ := (fitting_mutation suits f.name f.arguments).carryOut upheld plain now
    obtain ⟨-, next⟩ := (f.work_meets suits).run upheld depth now
    exact List.forall_mem_cons.mpr ⟨first, ih next⟩

theorem Operation.meets (suits : Suits s t) (upheld : t.Upheld inv) (now : inv (World.new loaders service))
    (op : Operation) : (∃ w, inv w ∧ (op.run s loaders service).2 = w.service) ∧
      ∀ e ∈ (op.run s loaders service).1.errors, t.fails e.fault.code := by
  cases op with
  | query sels => exact query_meets suits upheld now sels
  | mutation sels => exact mutation_meets suits upheld now sels

end Operations

end InfraGraph.Api

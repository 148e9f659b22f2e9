import InfraGraph.Proofs.Api.Outcomes

/-!
The rules that fields have for their arguments. A field checks all of its rules before it asks the service
anything. So arguments that break a rule are refused, as bad input, and the service is left as it was.
-/

namespace InfraGraph.Api

open InfraGraph.Graph

def Names (kind : Kind) (text : String) : Prop :=
  ∃ id, GlobalId.decode text = .ok ⟨kind, id⟩

def Marks {α : Type} (o : Order α) (text : String) : Prop :=
  ∃ c, Cursor.decode text = .ok c ∧ c.field = o.key.field.cursorName ∧ c.direction = o.direction

inductive Rule : Type 1
  | page (α : Type) (listed : Listed α)
  | anyId (arg : String)
  | id (kind : Kind) (arg : String)
  | optionalId (kind : Kind) (arg : String)
  | oneOf (kind : Kind) (idArg other : String)
  | atMostOne (kind : Kind) (idArg other : String)
  | member

namespace Rule

def Broken (settings : Settings) (args : Arguments) : Rule → Prop
  | page α _ =>
      (pageRequest args).validate settings.pages ≠ .ok () ∨
        ∃ text, (args.text? "after" = some text ∨ args.text? "before" = some text) ∧
          ¬ Marks (orderOf args : Order α) text
  | anyId arg => ∀ kind, ¬ Names kind (args.id arg)
  | id kind arg => ¬ Names kind (args.id arg)
  | optionalId kind arg => ∃ text, args.id? arg = some text ∧ ¬ Names kind text
  | oneOf kind idArg other =>
      (args.id? idArg).isSome = (args.text? other).isSome ∨
        ∃ text, args.id? idArg = some text ∧ ¬ Names kind text
  | atMostOne kind idArg other =>
      (args.id? idArg).isSome ∧ (args.text? other).isSome ∨
        ∃ text, args.id? idArg = some text ∧ ¬ Names kind text
  | member =>
      ([args.id? "userId", args.id? "serviceAccountId", args.id? "teamId"].filter
          Option.isSome).length ≠ 1 ∨
        (∃ text, args.id? "userId" = some text ∧ ¬ Names .user text) ∨
        (∃ text, args.id? "serviceAccountId" = some text ∧ ¬ Names .serviceAccount text) ∨
        ∃ text, args.id? "teamId" = some text ∧ ¬ Names .team text

end Rule

def Query.rules : String → List Rule
  | "node" => [.anyId "id"]
  | "users" => [.page User inferInstance]
  | "serviceAccounts" => [.page ServiceAccount inferInstance]
  | "groups" => [.page Group inferInstance]
  | "group" => [.oneOf .group "id" "fullPath"]
  | "workspaces" => [.page Workspace inferInstance]
  | "workspace" => [.oneOf .workspace "id" "fullPath"]
  | "teams" => [.page Team inferInstance]
  | "roles" => [.page Role inferInstance]
  | "role" => [.oneOf .role "id" "name"]
  | "runs" => [.page Run inferInstance, .atMostOne .workspace "workspaceId" "workspacePath"]
  | "run" => [.id .run "id"]
  | "terraformModules" => [.page TerraformModule inferInstance]
  | "terraformModule" => [.id .terraformModule "id"]
  | "terraformProviders" => [.page TerraformProvider inferInstance]
  | "vcsProviders" => [.page VcsProvider inferInstance]
  | "activityEvents" =>
      [.page ActivityEvent inferInstance, .optionalId .user "userId",
        .optionalId .serviceAccount "serviceAccountId"]
  | _ => []

def Mutation.rules : String → List Rule
  | "updateGroup" | "deleteGroup" => [.oneOf .group "id" "groupPath"]
  | "updateWorkspace" | "deleteWorkspace" => [.oneOf .workspace "id" "workspacePath"]
  | "createNamespaceMembership" => [.member]
  | "updateNamespaceMembership" | "deleteNamespaceMembership" => [.id .namespaceMembership "id"]
  | "createRun" => [.oneOf .workspace "workspaceId" "workspacePath"]
  | "cancelRun" => [.id .run "runId"]
  | "deleteTerraformModule" => [.id .terraformModule "id"]
  | "deleteVcsProvider" => [.id .vcsProvider "id"]
  | _ => []

def Refused {α : Type} (e : Except Fault α) : Prop :=
  ∃ f : Fault, f.code = .invalidInput ∧ e = .error f

section Refused

variable {kind : Kind} {text : String}

theorem decodeId_refused (bad : ¬ Names kind text) : Refused (decodeId kind text) := by
  unfold decodeId GlobalId.decodeAs
  cases decoded : GlobalId.decode text with
  | error f => exact ⟨f.rejection.fault, rfl, rfl⟩
  | ok g =>
    have other : g.kind ≠ kind := by
      rintro rfl
      exact bad ⟨g.id, decoded⟩
    simp only [other, if_false]
    exact ⟨_, rfl, rfl⟩

theorem decodeId?_refused {given : Option String} (bad : ∃ text, given = some text ∧ ¬ Names kind text) :
    Refused (decodeId? kind given) := by
  obtain ⟨text, rfl, bad⟩ := bad
  obtain ⟨f, code, refused⟩ := decodeId_refused bad
  exact ⟨f, code, by rw [decodeId?, refused]; rfl⟩

theorem locate_refused {id path : Option String}
    (bad : id.isSome = path.isSome ∨ ∃ text, id = some text ∧ ¬ Names kind text) :
    Refused (locate kind id path) := by
  unfold locate
  rcases id with _ | text <;> rcases path with _ | p
  · exact ⟨_, rfl, rfl⟩
  · simp at bad
  · have unnamed : ¬ Names kind text := by simpa using bad
    obtain ⟨f, code, refused⟩ := decodeId_refused unnamed
    exact ⟨f.onField "id", code, by simp only [refused]⟩
  · exact ⟨_, rfl, rfl⟩

theorem memberOf_refused {user account team : Option String}
    (bad : ([user, account, team].filter Option.isSome).length ≠ 1 ∨
      (∃ text, user = some text ∧ ¬ Names .user text) ∨
      (∃ text, account = some text ∧ ¬ Names .serviceAccount text) ∨
      ∃ text, team = some text ∧ ¬ Names .team text) :
    Refused (Mutation.memberOf user account team) := by
  -- one identifier alone is refused for what it is, and any other number of them at once
  have alone : ∀ kind text (field : String) (wrap : String → Member), ¬ Names kind text →
      Refused (((decodeId kind text).mapError (·.onField field)).map wrap) := by
    intro kind text field wrap bad
    obtain ⟨f, code, refused⟩ := decodeId_refused bad
    exact ⟨f.onField field, code, by rw [refused]; rfl⟩
  unfold Mutation.memberOf
  rcases user with _ | u <;> rcases account with _ | a <;> rcases team with _ | t
  case none.none.some => exact alone _ _ _ _ (by simpa using bad)
  case none.some.none => exact alone _ _ _ _ (by simpa using bad)
  case some.none.none => exact alone _ _ _ _ (by simpa using bad)
  all_goals exact ⟨_, rfl, rfl⟩

theorem marks_of_readCursor {α : Type} {o : Order α} {text : String} {c : Option Cursor}
    (h : PageRequest.readCursor o (some text) = .ok c) : Marks o text := by
  unfold PageRequest.readCursor at h
  dsimp only at h
  cases decoded : Cursor.decode text with
  | error f => simp [decoded] at h
  | ok c =>
    rw [decoded] at h
    by_cases made : c.field = o.key.field.cursorName ∧ c.direction = o.direction
    · exact ⟨c, decoded, made⟩
    · simp [Cursor.forOrder, made, Except.map] at h

theorem code_of_window {α : Type} {r : PageRequest} {o : Order α} {settings : PageSettings}
    {j : Rejection} (h : r.window o settings = .error j) : j.code = .invalidInput := by
  unfold PageRequest.window at h
  cases valid : r.validate settings with
  | error f =>
    rw [valid] at h
    cases h
    rfl
  | ok _ =>
    cases after : PageRequest.readCursor o r.after with
    | error f =>
      rw [valid, after] at h
      cases h
      rfl
    | ok _ =>
      cases before : PageRequest.readCursor o r.before with
      | error f =>
        rw [valid, after, before] at h
        cases h
        rfl
      | ok _ =>
        simp only [valid, after, before] at h
        split at h
        · cases h
        · cases h
        · split at h <;> cases h

theorem window_refused {α : Type} {r : PageRequest} {o : Order α} {settings : PageSettings}
    (bad : r.validate settings ≠ .ok () ∨
      ∃ text, (r.after = some text ∨ r.before = some text) ∧ ¬ Marks o text) :
    ∃ j, r.window o settings = .error j := by
  unfold PageRequest.window
  cases valid : r.validate settings with
  | error f => exact ⟨f.rejection, rfl⟩
  | ok _ =>
    cases after : PageRequest.readCursor o r.after with
    | error f => exact ⟨f.rejection, rfl⟩
    | ok _ =>
      cases before : PageRequest.readCursor o r.before with
      | error f => exact ⟨f.rejection, rfl⟩
      | ok _ =>
        rcases bad with invalid | ⟨text, given | given, unmarked⟩
        · exact absurd valid invalid
        · exact absurd (marks_of_readCursor (given ▸ after)) unmarked
        · exact absurd (marks_of_readCursor (given ▸ before)) unmarked

end Refused

/-- A resolver that comes to a fault of the input, and has asked for nothing. -/
def Refuses {α : Type} (r : Resolver α) : Prop :=
  ∃ f : Fault, f.code = .invalidInput ∧ r = throw f

def Checks {α : Type} (r : Resolver α) : Prop :=
  Refuses r ∨ ∃ a, r = pure a

section Refuses

variable {α β : Type} {r : Resolver α} {f : α → Resolver β}

theorem Refused.refuses {e : Except Fault α} (h : Refused e) : Refuses (Resolver.ofExcept e) := by
  obtain ⟨f, code, rfl⟩ := h
  exact ⟨f, code, rfl⟩

theorem Refuses.bind (h : Refuses r) : Refuses (r >>= f) := by
  obtain ⟨g, code, rfl⟩ := h
  exact ⟨g, code, rfl⟩

theorem Refuses.map (h : Refuses r) (g : α → β) : Refuses (g <$> r) := by
  obtain ⟨f, code, rfl⟩ := h
  exact ⟨f, code, rfl⟩

theorem Checks.bind (h : Checks r) (rest : ∀ a, Refuses (f a)) : Refuses (r >>= f) := by
  rcases h with refuses | ⟨a, rfl⟩
  · exact refuses.bind
  · exact rest a

theorem checks_decodeId? (kind : Kind) (given : Option String) :
    Checks (Resolver.ofExcept (decodeId? kind given)) := by
  rcases given with _ | text
  · exact .inr ⟨none, rfl⟩
  · by_cases named : Names kind text
    · obtain ⟨id, decoded⟩ := named
      exact .inr ⟨some id, by simp [decodeId?, decodeId, GlobalId.decodeAs, decoded]; rfl⟩
    · exact .inl (decodeId?_refused ⟨text, rfl, named⟩).refuses

variable [Listed α] {settings : Settings} {args : Arguments}

theorem listing_eq (settings : Settings) (args : Arguments) :
    (listing (.complete settings) args : Resolver (Listing α)) =
      match (pageRequest args).window (orderOf args : Order α) settings.pages with
      | .error j => throw j.fault
      | .ok window => pure ⟨orderOf args, window⟩ :=
  rfl

theorem refuses_listing (broken : (Rule.page α inferInstance).Broken settings args) :
    Refuses (listing (.complete settings) args : Resolver (Listing α)) := by
  obtain ⟨j, refused⟩ := window_refused (o := (orderOf args : Order α)) broken
  exact ⟨j.fault, code_of_window refused, by rw [listing_eq, refused]⟩

theorem checks_listing (settings : Settings) (args : Arguments) :
    Checks (listing (.complete settings) args : Resolver (Listing α)) := by
  rw [listing_eq]
  cases page : (pageRequest args).window (orderOf args : Order α) settings.pages with
  | error j => exact .inl ⟨j.fault, code_of_window page, rfl⟩
  | ok window => exact .inr ⟨⟨orderOf args, window⟩, rfl⟩

end Refuses

section Queries

variable {settings : Settings} {args : Arguments}

theorem refuses_node (broken : ∀ kind, ¬ Names kind (args.id "id")) :
    Refuses (Query.node (.complete settings) args) := by
  unfold Query.node
  cases decoded : GlobalId.decode (args.id "id") with
  | error f => exact ⟨f.rejection.fault, rfl, rfl⟩
  | ok g => exact absurd ⟨g.id, decoded⟩ (broken g.kind)

theorem refuses_role (broken : (Rule.oneOf .role "id" "name").Broken settings args) :
    Refuses (Query.role (.complete settings) args) := by
  unfold Query.role
  simp only [Rule.Broken] at broken
  generalize args.id? "id" = id at broken ⊢
  generalize args.text? "name" = name at broken ⊢
  rcases id with _ | id <;> rcases name with _ | name
  · exact ⟨_, rfl, rfl⟩
  · simp at broken
  · exact (decodeId_refused (by simpa using broken)).refuses.bind
  · exact ⟨_, rfl, rfl⟩

theorem refuses_workspaceId {id path : Option String}
    (bad : id.isSome = path.isSome ∨ ∃ text, id = some text ∧ ¬ Names .workspace text) :
    Refuses (workspaceId id path) :=
  (locate_refused bad).refuses.bind

theorem refuses_runs {rule : Rule} (mem : rule ∈ Query.rules "runs")
    (broken : rule.Broken settings args) : Refuses (Query.runs (.complete settings) args) := by
  rcases List.mem_pair.mp mem with rfl | rfl
  · exact (refuses_listing broken).bind
  · refine (checks_listing settings args).bind fun l => ?_
    simp only [Rule.Broken] at broken
    generalize args.id? "workspaceId" = id at broken ⊢
    generalize args.text? "workspacePath" = path at broken ⊢
    rcases id with _ | id
    · simp at broken
    · refine ((refuses_workspaceId ?_).map some).bind
      rcases broken with both | bad
      · exact .inl both.2.symm
      · exact .inr bad

theorem refuses_activityEvents {rule : Rule} (mem : rule ∈ Query.rules "activityEvents")
    (broken : rule.Broken settings args) :
    Refuses (Query.activityEvents (.complete settings) args) := by
  simp only [Query.rules, List.mem_cons, List.not_mem_nil, or_false] at mem
  rcases mem with rfl | rfl | rfl
  · exact (refuses_listing broken).bind
  · exact (checks_listing settings args).bind fun l => (decodeId?_refused broken).refuses.bind
  · exact (checks_listing settings args).bind fun l => (checks_decodeId? _ _).bind fun _ =>
      (decodeId?_refused broken).refuses.bind

theorem refuses_query {name : String} {rule : Rule} (mem : rule ∈ Query.rules name)
    (broken : rule.Broken settings args) : Refuses (Query.field (.complete settings) name args) := by
  have whole := mem
  unfold Query.rules at mem
  split at mem <;> try obtain rfl := List.mem_singleton.mp mem
  · exact refuses_node broken
  · exact (refuses_listing broken).bind
  · exact (refuses_listing broken).bind
  · exact (refuses_listing broken).bind
  · exact (locate_refused broken).refuses.bind
  · exact (refuses_listing broken).bind
  · exact (locate_refused broken).refuses.bind
  · exact (refuses_listing broken).bind
  · exact (refuses_listing broken).bind
  · exact refuses_role broken
  · exact refuses_runs whole broken
  · exact (decodeId_refused broken).refuses.bind
  · exact (refuses_listing broken).bind
  · exact (decodeId_refused broken).refuses.bind
  · exact (refuses_listing broken).bind
  · exact (refuses_listing broken).bind
  · exact refuses_activityEvents whole broken
  · cases mem

end Queries

section Mutations

variable {input : Arguments}

theorem Refused.fault {α : Type} {e : Except Fault α} (h : Refused e) :
    ∃ f : Fault, f.code = .invalidInput ∧ faultOf e = some f := by
  obtain ⟨f, code, rfl⟩ := h
  exact ⟨f, code, rfl⟩

namespace Mutation

theorem flaw_of_broken {settings : Settings} {name : String} {rule : Rule} (mem : rule ∈ rules name)
    (broken : rule.Broken settings input) :
    (∃ act, act? name = some act) ∧
      ∃ f : Fault, f.code = .invalidInput ∧ flaw? name input = some f := by
  unfold rules at mem
  split at mem <;> try obtain rfl := List.mem_singleton.mp mem
  · exact ⟨⟨_, rfl⟩, (locate_refused broken).fault⟩
  · exact ⟨⟨_, rfl⟩, (locate_refused broken).fault⟩
  · exact ⟨⟨_, rfl⟩, (locate_refused broken).fault⟩
  · exact ⟨⟨_, rfl⟩, (locate_refused broken).fault⟩
  · exact ⟨⟨_, rfl⟩, (memberOf_refused broken).fault⟩
  · exact ⟨⟨_, rfl⟩, (decodeId_refused broken).fault⟩
  · exact ⟨⟨_, rfl⟩, (decodeId_refused broken).fault⟩
  · exact ⟨⟨_, rfl⟩, (locate_refused broken).fault⟩
  · exact ⟨⟨_, rfl⟩, (decodeId_refused broken).fault⟩
  · exact ⟨⟨_, rfl⟩, (decodeId_refused broken).fault⟩
  · exact ⟨⟨_, rfl⟩, (decodeId_refused broken).fault⟩
  · cases mem

theorem perform_refused (settings : Settings) {α : Type} {kind : Kind} {wrap : α → Entity} {f : Fault}
    (code : f.code = .invalidInput) :
    (perform (.complete settings) kind wrap input (throw f)).run =
      .done (.ok (.node (.payload ⟨kind, input.text? "clientMutationId", none,
        [⟨.badRequest, f.message, f.field⟩]⟩))) := by
  obtain ⟨code, message, field⟩ := f
  cases code
  rfl

theorem field_refused (settings : Settings) {name : String} {args : Arguments} {act : Act} {f : Fault}
    (known : act? name = some act) (flawed : flaw? name (args.record "input") = some f)
    (code : f.code = .invalidInput) :
    (field (.complete settings) name args).run = .done (.ok (.node (.payload
      ⟨act.kind, (args.record "input").text? "clientMutationId", none,
        [⟨.badRequest, f.message, f.field⟩]⟩))) := by
  obtain ⟨α, wrap, write, h, field⟩ := makes known args
  rw [field, h.careful.refuses f flawed]
  exact perform_refused settings code

end Mutation

end Mutations

/-- The nodes that hold all of their fields: problems, and payloads without a result. -/
def Node.Bare : Node → Prop
  | .payload p => p.result = none
  | .problem _ => True
  | _ => False

theorem schema_holds (s : Setup) : (schema s).Holds Node.Bare := by
  intro n bare name args
  cases n with
  | payload p =>
    have none : p.result = none := bare
    simp only [schema, resolve, payloadField]
    split_ifs
    · simp [Outcome.Leads]
    · refine Resolver.within_pure.mpr fun n mem => ?_
      obtain ⟨q, -, rfl⟩ := List.mem_map.mp mem
      trivial
    · simp [none, nothing, Outcome.Leads]
    · simp [nothing, Outcome.Leads]
  | problem p => simp [schema, resolve, orNull, Outcome.Leads]
  | _ => exact absurd bare id

theorem respond_bare (s : Setup) (loaders : LoaderSettings) (key : String) (inner : List Selection)
    {p : Payload} (bare : p.result = none) (service : Service) :
    (respond s loaders key inner (.ok (.node (.payload p)), service)).2 = service := by
  have finished : (Work.ofOutcome (schema s) (Work.ofSelections (schema s) inner)
      (.ok (.node (.payload p)))).isFinished :=
    Work.finished_ofOutcome (P := Node.Bare) (Work.finished_ofSelections (schema_holds s) inner)
      fun a same => by
        cases same
        exact bare
  simp only [respond, Work.run_of_finished finished, World.service_new]

theorem query_failed {s : Setup} {name : String} {args : Arguments} {f : Fault}
    (named : name ≠ "__typename") (failed : Query.field s name args = throw f)
    (loaders : LoaderSettings) (key : String) (inner : List Selection) (service : Service) :
    query s loaders [.field key name args inner] service = (.ofFault [.key key] f, service) := by
  have work : Work.ofRoot (schema s) [.field key name args inner] .query = [(key, .failed f)] := by
    simp only [Work.ofRoot, Work.ofSelections, Work.ofSelection, named, if_false, schema, resolve, failed]
    rfl
  have finished : (Work.object [(key, .failed f)]).isFinished := rfl
  simp only [query, work, Work.run_of_finished finished, ofResult_failed, World.service_new]

/-- Arguments that break a rule of a field are refused as bad input, and the service is not asked: a query
fails, and a mutation has the one problem. -/
theorem invalid_arguments_refused (settings : Settings) :
    (∀ (name : String) (args : Arguments), ∀ rule ∈ Query.rules name, rule.Broken settings args →
      ∃ f : Fault, f.code.label = "BAD_REQUEST" ∧
        (Query.field (.complete settings) name args).run = .done (.error f) ∧
        ∀ loaders key inner service,
          query (.complete settings) loaders [.field key name args inner] service =
            (.ofFault [.key key] f, service)) ∧
    ∀ (name : String) (args : Arguments), ∀ rule ∈ Mutation.rules name,
      rule.Broken settings (args.record "input") →
      ∃ (kind : Kind) (p : Problem), p.kind.label = "BAD_REQUEST" ∧
        let payload : Payload := ⟨kind, (args.record "input").text? "clientMutationId", none, [p]⟩
        (Mutation.field (.complete settings) name args).run = .done (.ok (.node (.payload payload))) ∧
        (∀ loaders key inner service,
          mutation (.complete settings) loaders [.field key name args inner] service =
            ((respond (.complete settings) loaders key inner (.ok (.node (.payload payload)),
              service)).1, service)) ∧
        ∀ loaders key service, mutation (.complete settings) loaders
            [.field key name args (payloadFields (Mutation.resultName name))] service =
          (⟨.object [(key, .object [
            ("clientMutationId", ((args.record "input").text? "clientMutationId").elim .null .text),
            ("problems", .list [.object [("type", .text "BAD_REQUEST"), ("message", .text p.message),
              ("field", p.field.elim .null fun f => .list [.text f])]]),
            (Mutation.resultName name, .null)])], []⟩, service) := by
  refine ⟨fun name args rule mem broken => ?_, fun name args rule mem broken => ?_⟩
  · obtain ⟨f, code, refused⟩ := refuses_query mem broken
    have named : name ≠ "__typename" := by
      rintro rfl
      simp [Query.rules] at mem
    exact ⟨f, by rw [code]; rfl, by rw [refused]; rfl, query_failed named refused⟩
  · obtain ⟨⟨act, known⟩, f, code, flawed⟩ := Mutation.flaw_of_broken mem broken
    have refused := Mutation.field_refused settings known flawed code
    refine ⟨act.kind, ⟨.badRequest, f.message, f.field⟩, rfl, refused, fun loaders key inner service => ?_,
      fun loaders key service => ?_⟩
    · rw [Mutation.mutation_field _ loaders known, refused]
      exact Prod.ext rfl (respond_bare _ loaders key inner rfl service)
    · have came : (Mutation.field (.complete settings) name args).run.carryOut service =
          (.ok (.node (.payload ⟨act.kind, (args.record "input").text? "clientMutationId", none,
            [⟨.badRequest, f.message, f.field⟩]⟩)), service) := by
        rw [refused]
        rfl
      rw [Mutation.mutation_told known (congrArg Prod.fst came), came]
      rfl

def strayCursor : Arguments :=
  [("after", .text "?"), ("workspacePath", .text "ops/api")]

def twiceNamed : Arguments :=
  [("input", .record [("id", .text "R19n"), ("groupPath", .text "ops")])]

theorem invalid_arguments_refused_examples :
    (Rule.page Run inferInstance).Broken .standard strayCursor ∧
    (Rule.oneOf .group "id" "groupPath").Broken .standard (twiceNamed.record "input") ∧
    (∃ f : Fault, f.code.label = "BAD_REQUEST" ∧
      (Query.field (.complete .standard) "runs" strayCursor).run = .done (.error f)) ∧
    ∃ (kind : Kind) (p : Problem), p.kind.label = "BAD_REQUEST" ∧
      (Mutation.field (.complete .standard) "updateGroup" twiceNamed).run =
        .done (.ok (.node (.payload ⟨kind, none, none, [p]⟩))) ∧
      (mutation (.complete .standard) .standard
          [.field "update" "updateGroup" twiceNamed (payloadFields "group")] (.new smallStore)).1 =
        ⟨.object [("update", .object [("clientMutationId", .null),
          ("problems", .list [.object [("type", .text "BAD_REQUEST"), ("message", .text p.message),
            ("field", p.field.elim .null fun f => .list [.text f])]]), ("group", .null)])], []⟩ := by
  have stray : (Rule.page Run inferInstance).Broken .standard strayCursor := by
    refine .inr ⟨"?", .inl rfl, fun ⟨c, decoded, _⟩ => ?_⟩
    have flawed : Cursor.decode "?" = .error .notBase64 := by decide +kernel
    rw [flawed] at decoded
    cases decoded
  have twice : (Rule.oneOf .group "id" "groupPath").Broken .standard (twiceNamed.record "input") :=
    .inl rfl
  obtain ⟨f, label, failed, -⟩ :=
    (invalid_arguments_refused .standard).1 "runs" strayCursor _ (.head _) stray
  obtain ⟨kind, p, label', refused, -, shown⟩ :=
    (invalid_arguments_refused .standard).2 "updateGroup" twiceNamed _ (.head _) twice
  exact ⟨stray, twice, ⟨f, label, failed⟩, kind, p, label', refused,
    congrArg Prod.fst (shown .standard "update" (.new smallStore))⟩

end InfraGraph.Api

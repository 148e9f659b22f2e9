import InfraGraph.Proofs.Api.Mutations
import InfraGraph.Proofs.Api.Responses
import InfraGraph.Proofs.Graph.Exchanges

/-!
How the fields of a mutation end. Each either makes its write, or stops at the first step that fails: the
identifiers in the input, the lookup of a path or of a role, or the write itself. A payload tells of the
write or of that one failure. Only failures that the caller can do nothing about leave no payload.
-/

namespace InfraGraph.Api

open InfraGraph.Graph

def faultOf {α : Type} : Except Fault α → Option Fault
  | .ok _ => none
  | .error f => some f

namespace Mutation

inductive Edit
  | amend
  | remove
  | append
  deriving DecidableEq, Repr

structure Act where
  edit : Edit
  kind : Kind
  deriving DecidableEq, Repr

def act? : String → Option Act
  | "updateGroup" => some ⟨.amend, .group⟩
  | "deleteGroup" => some ⟨.remove, .group⟩
  | "updateWorkspace" => some ⟨.amend, .workspace⟩
  | "deleteWorkspace" => some ⟨.remove, .workspace⟩
  | "createNamespaceMembership" => some ⟨.append, .namespaceMembership⟩
  | "updateNamespaceMembership" => some ⟨.amend, .namespaceMembership⟩
  | "deleteNamespaceMembership" => some ⟨.remove, .namespaceMembership⟩
  | "createRun" => some ⟨.append, .run⟩
  | "cancelRun" => some ⟨.amend, .run⟩
  | "deleteTerraformModule" => some ⟨.remove, .terraformModule⟩
  | "deleteVcsProvider" => some ⟨.remove, .vcsProvider⟩
  | _ => none

def resultName : String → String
  | "updateGroup" | "deleteGroup" => "group"
  | "updateWorkspace" | "deleteWorkspace" => "workspace"
  | "createNamespaceMembership" | "updateNamespaceMembership" | "deleteNamespaceMembership" => "membership"
  | "createRun" | "cancelRun" => "run"
  | "deleteTerraformModule" => "module"
  | "deleteVcsProvider" => "vcsProvider"
  | _ => ""

theorem resultName_eq {name : String} {act : Act} (known : act? name = some act) :
    resultName name = Payload.resultField act.kind := by
  unfold act? at known
  split at known <;> cases known <;> rfl

inductive Makes (input : Arguments) : String → Act → (α : Type) → (α → Entity) → Resolver α → Prop
  | updateGroup :
      Makes input "updateGroup" ⟨.amend, .group⟩ Group .group (updateGroup input)
  | deleteGroup :
      Makes input "deleteGroup" ⟨.remove, .group⟩ Group .group (deleteGroup input)
  | updateWorkspace :
      Makes input "updateWorkspace" ⟨.amend, .workspace⟩ Workspace .workspace (updateWorkspace input)
  | deleteWorkspace :
      Makes input "deleteWorkspace" ⟨.remove, .workspace⟩ Workspace .workspace (deleteWorkspace input)
  | createMembership :
      Makes input "createNamespaceMembership" ⟨.append, .namespaceMembership⟩ NamespaceMembership
        .namespaceMembership (createMembership input)
  | updateMembership :
      Makes input "updateNamespaceMembership" ⟨.amend, .namespaceMembership⟩ NamespaceMembership
        .namespaceMembership (updateMembership input)
  | deleteMembership :
      Makes input "deleteNamespaceMembership" ⟨.remove, .namespaceMembership⟩ NamespaceMembership
        .namespaceMembership (deleteMembership input)
  | createRun : Makes input "createRun" ⟨.append, .run⟩ Run .run (createRun input)
  | cancelRun : Makes input "cancelRun" ⟨.amend, .run⟩ Run .run (cancelRun input)
  | deleteModule :
      Makes input "deleteTerraformModule" ⟨.remove, .terraformModule⟩ TerraformModule
        .terraformModule (deleteModule input)
  | deleteVcsProvider :
      Makes input "deleteVcsProvider" ⟨.remove, .vcsProvider⟩ VcsProvider .vcsProvider
        (deleteVcsProvider input)

theorem makes {name : String} {act : Act} (known : act? name = some act) (args : Arguments) :
    ∃ α wrap write, Makes (args.record "input") name act α wrap write ∧
      ∀ s, field s name args = perform s act.kind wrap (args.record "input") write := by
  unfold act? at known
  split at known <;> cases known <;> exact ⟨_, _, _, by constructor, fun _ => rfl⟩

def flaw? (name : String) (input : Arguments) : Option Fault :=
  match name with
  | "updateGroup" | "deleteGroup" => faultOf (locate .group (input.id? "id") (input.text? "groupPath"))
  | "updateWorkspace" | "deleteWorkspace" =>
      faultOf (locate .workspace (input.id? "id") (input.text? "workspacePath"))
  | "createNamespaceMembership" =>
      faultOf (memberOf (input.id? "userId") (input.id? "serviceAccountId") (input.id? "teamId"))
  | "updateNamespaceMembership" | "deleteNamespaceMembership" =>
      faultOf (decodeId .namespaceMembership (input.id "id"))
  | "createRun" =>
      faultOf (locate .workspace (input.id? "workspaceId") (input.text? "workspacePath"))
  | "cancelRun" => faultOf (decodeId .run (input.id "runId"))
  | "deleteTerraformModule" => faultOf (decodeId .terraformModule (input.id "id"))
  | "deleteVcsProvider" => faultOf (decodeId .vcsProvider (input.id "id"))
  | _ => none

/-- The fault that a call told of. What goes wrong with a role is said of the field that names it. -/
def told? (x : Exchange) : Option Fault :=
  match x.reply with
  | .ok _ => none
  | .error f =>
      match x.request with
      | .roleNamed _ => some (f.onField "role")
      | _ => some f

def faults (s : Setup) (name : String) (args : Arguments) (service : Service) : List Fault :=
  if s.catalog then
    (flaw? name (args.record "input")).toList ++
      ((field s name args).run.exchanges service).filterMap told?
  else [.internal "service catalog missing from schema data"]

/-- The three ways in which a mutation may end, by the faults that its steps have met. -/
inductive Ending (kind : Kind) (clientMutationId : Option String) :
    List Fault → Except Fault (Outcome Node) → Prop
  | result (e : Entity) (of_kind : e.kind = kind) :
      Ending kind clientMutationId [] (.ok (.node (.payload ⟨kind, clientMutationId, some e, []⟩)))
  | problem (f : Fault) (p : Problem) (authorized : f.code ≠ .unauthorized)
      (external : f.code ≠ .internal) (type : p.kind.label = f.code.label)
      (message : p.message = f.message) (field : p.field = f.field) :
      Ending kind clientMutationId [f] (.ok (.node (.payload ⟨kind, clientMutationId, none, [p]⟩)))
  | error (f : Fault) (code : f.code = .unauthorized ∨ f.code = .internal) :
      Ending kind clientMutationId [f] (.error f)

/-- A resolver that refuses a flaw at once, and otherwise fails just as it is told by a call. -/
structure Careful {α : Type} (flaw : Option Fault) (r : Resolver α) : Prop where
  refuses : ∀ f, flaw = some f → r = throw f
  frank : flaw = none → ∀ service,
    (r.run.exchanges service).filterMap told? = (faultOf (r.run.carryOut service).1).toList

section Careful

variable {α β : Type} {flaw : Option Fault}

theorem careful_pure (a : α) : Careful none (pure a) :=
  ⟨fun _ flawed => by simp at flawed, fun _ _ => rfl⟩

theorem careful_ofExcept (e : Except Fault α) : Careful (faultOf e) (Resolver.ofExcept e) := by
  cases e with
  | error f => exact ⟨fun g same => by cases same; rfl, fun sound => by cases sound⟩
  | ok a => exact careful_pure a

theorem careful_ask {q : Request} (plain : ∀ x, q ≠ .roleNamed x) : Careful none (Resolver.ask q) := by
  refine ⟨fun _ flawed => by simp at flawed, fun _ service => ?_⟩
  simp only [Resolver.ask, ExceptT.run_mk, Plan.exchanges, Plan.carryOut]
  cases (service.answer q).1 with
  | ok a => rfl
  | error f =>
    simp only [told?, faultOf, List.filterMap_cons]
    rfl

theorem Careful.bind {r : Resolver α} {f : α → Resolver β} (h : Careful flaw r)
    (rest : ∀ a, Careful none (f a)) : Careful flaw (r >>= f) := by
  refine ⟨fun g same => by rw [h.refuses g same]; rfl, fun sound service => ?_⟩
  have first := h.frank sound service
  rcases out : r.run.carryOut service with ⟨g | a, after⟩
  · rw [Resolver.exchanges_bind_error out, Resolver.carryOut_bind_error out, first, out]
    rfl
  · rw [Resolver.exchanges_bind_ok out, Resolver.carryOut_bind_ok out, List.filterMap_append, first,
      (rest a).frank rfl, out]
    rfl

theorem careful_groupId (id path : Option String) :
    Careful (faultOf (locate .group id path)) (groupId id path) :=
  (careful_ofExcept _).bind fun
    | .id _ => careful_pure _
    | .path _ => (careful_ask (by simp)).bind fun _ => careful_pure _

theorem careful_workspaceId (id path : Option String) :
    Careful (faultOf (locate .workspace id path)) (workspaceId id path) :=
  (careful_ofExcept _).bind fun
    | .id _ => careful_pure _
    | .path _ => (careful_ask (by simp)).bind fun _ => careful_pure _

theorem careful_roleNamed (name : String) : Careful none (roleNamed name) := by
  refine ⟨fun _ flawed => by simp at flawed, fun _ service => ?_⟩
  have exchanges : (roleNamed name).run.exchanges service =
      [⟨.roleNamed name, (service.answer (.roleNamed name)).1⟩] := rfl
  have outcome : ((roleNamed name).run.carryOut service).1 =
      (service.answer (.roleNamed name)).1.mapError (·.onField "role") := rfl
  rw [exchanges, outcome]
  cases (service.answer (.roleNamed name)).1 <;> rfl

end Careful

section Perform

variable {α : Type} {s : Setup} {kind : Kind} {wrap : α → Entity} {input : Arguments}
  {write : Resolver α}

theorem ending_settle (of_kind : ∀ a, (wrap a).kind = kind) (clientMutationId : Option String)
    (r : Except Fault α) : Ending kind clientMutationId (faultOf r).toList
      ((settle kind wrap clientMutationId r).map fun p => .node (.payload p)) := by
  cases r with
  | ok a => exact .result _ (of_kind a)
  | error f =>
    obtain ⟨code, message, field⟩ := f
    cases code with
    | unauthorized => exact .error _ (.inl rfl)
    | internal => exact .error _ (.inr rfl)
    | _ => exact .problem _ _ (by simp) (by simp) rfl rfl rfl

theorem perform_missing (missing : s.catalog = false) :
    perform s kind wrap input write = throw (.internal "service catalog missing from schema data") := by
  unfold perform Setup.needCatalog Setup.need
  rw [missing]
  rfl

theorem carryOut_perform (here : s.catalog) (service : Service) :
    (perform s kind wrap input write).run.carryOut service =
      ((settle kind wrap (input.text? "clientMutationId") (write.run.carryOut service).1).map
        fun p => .node (.payload p), (write.run.carryOut service).2) := by
  unfold perform Setup.needCatalog Setup.need
  rw [here]
  refine (Resolver.carryOut_bind_ok (write.carryOut_attempt service) _).trans ?_
  cases settle kind wrap (input.text? "clientMutationId") (write.run.carryOut service).1 <;> rfl

theorem exchanges_perform (here : s.catalog) (service : Service) :
    (perform s kind wrap input write).run.exchanges service = write.run.exchanges service := by
  unfold perform Setup.needCatalog Setup.need
  rw [here]
  refine (Resolver.exchanges_bind_ok (write.carryOut_attempt service) _).trans ?_
  rw [write.exchanges_attempt]
  cases settle kind wrap (input.text? "clientMutationId") (write.run.carryOut service).1 <;>
    exact List.append_nil _

theorem ending_perform {flaw : Option Fault} (careful : Careful flaw write)
    (of_kind : ∀ a, (wrap a).kind = kind) (service : Service) :
    Ending kind (input.text? "clientMutationId")
      (if s.catalog then
        flaw.toList ++ ((perform s kind wrap input write).run.exchanges service).filterMap told?
      else [.internal "service catalog missing from schema data"])
      ((perform s kind wrap input write).run.carryOut service).1 := by
  cases here : s.catalog with
  | false =>
    rw [perform_missing here]
    exact .error _ (.inr rfl)
  | true =>
    rw [if_pos rfl, exchanges_perform here, carryOut_perform here]
    cases flaw with
    | none =>
      rw [Option.toList_none, List.nil_append, careful.frank rfl]
      exact ending_settle of_kind _ _
    | some f =>
      rw [careful.refuses f rfl]
      exact ending_settle of_kind _ (.error f)

end Perform

section Makes

variable {input : Arguments} {name : String} {act : Act} {α : Type} {wrap : α → Entity}
  {write : Resolver α}

theorem Makes.of_kind (h : Makes input name act α wrap write) (a : α) : (wrap a).kind = act.kind := by
  cases h <;> rfl

theorem Makes.careful (h : Makes input name act α wrap write) : Careful (flaw? name input) write := by
  cases h with
  | updateGroup => exact (careful_groupId _ _).bind fun _ => careful_ask (by simp)
  | deleteGroup => exact (careful_groupId _ _).bind fun _ => careful_ask (by simp)
  | updateWorkspace => exact (careful_workspaceId _ _).bind fun _ => careful_ask (by simp)
  | deleteWorkspace => exact (careful_workspaceId _ _).bind fun _ => careful_ask (by simp)
  | createMembership =>
    exact (careful_ofExcept _).bind fun _ => (careful_roleNamed _).bind fun _ => careful_ask (by simp)
  | updateMembership =>
    exact (careful_ofExcept _).bind fun _ => (careful_roleNamed _).bind fun _ => careful_ask (by simp)
  | deleteMembership => exact (careful_ofExcept _).bind fun _ => careful_ask (by simp)
  | createRun => exact (careful_workspaceId _ _).bind fun _ => careful_ask (by simp)
  | cancelRun => exact (careful_ofExcept _).bind fun _ => careful_ask (by simp)
  | deleteModule => exact (careful_ofExcept _).bind fun _ => careful_ask (by simp)
  | deleteVcsProvider => exact (careful_ofExcept _).bind fun _ => careful_ask (by simp)

end Makes

theorem mutation_field (s : Setup) (loaders : LoaderSettings) {name : String} {act : Act}
    (known : act? name = some act) (key : String) (args : Arguments) (inner : List Selection)
    (service : Service) : mutation s loaders [.field key name args inner] service =
      respond s loaders key inner ((field s name args).run.carryOut service) := by
  have named : name ≠ "__typename" := by
    rintro rfl
    simp [act?] at known
  have plan : (field s name args).run.Within _ _ 0 := mutation_within name args
  have depth : Selection.depthAll [.field key name args inner] = Selection.depthAll inner + 1 := by
    simp [Selection.depthAll, Selection.depth]
  have work : Work.ofRoot (schema s) [.field key name args inner] .mutation =
      [(key, .ofPlan (Work.ofOutcome (schema s) (Work.ofSelections (schema s) inner))
        (field s name args).run)] := by
    simp [Work.ofRoot, Work.ofSelections, Work.ofSelection, named, schema, resolve]
  simp only [mutation, work, depth, List.map_cons, List.map_nil, runInTurn, Work.run,
    plan.pass_ofPlan]
  rfl

theorem ending_field {s : Setup} {name : String} {act : Act} (known : act? name = some act)
    (args : Arguments) (service : Service) :
    Ending act.kind ((args.record "input").text? "clientMutationId") (faults s name args service)
      ((field s name args).run.carryOut service).1 := by
  obtain ⟨α, wrap, write, h, field⟩ := makes known args
  unfold faults
  simp only [field]
  exact ending_perform h.careful h.of_kind service

/-- A mutation that has come to a payload tells the client of it in full. -/
theorem mutation_told {s : Setup} {name : String} {act : Act} (known : act? name = some act)
    {args : Arguments} {service : Service} {clientMutationId : Option String} {result : Option Entity}
    {problems : List Problem} (came : ((field s name args).run.carryOut service).1 =
      .ok (.node (.payload ⟨act.kind, clientMutationId, result, problems⟩)))
    (loaders : LoaderSettings) (key : String) :
    mutation s loaders [.field key name args (payloadFields (resultName name))] service =
      (⟨.object [(key, .object [
          ("clientMutationId", clientMutationId.elim .null .text),
          ("problems", .list (problems.map fun q => .object [("type", .text q.kind.label),
            ("message", .text q.message), ("field", q.field.elim .null fun f => .list [.text f])])),
          (resultName name, result.elim .null fun e =>
            .object [("id", .text (GlobalId.encode ⟨e.kind, e.id⟩))])])], []⟩,
        ((field s name args).run.carryOut service).2) := by
  have shows := shows_payload s ⟨act.kind, clientMutationId, result, problems⟩
  rw [mutation_field s loaders known, resultName_eq known]
  generalize (field s name args).run.carryOut service = out at came
  obtain ⟨o, after⟩ := out
  obtain rfl : o = _ := came
  exact respond_shows s loaders key shows after

/-- A mutation ends in exactly one of three ways: with its result; with one problem, which tells of the
one step that failed; or with an error, if the fault of that step is one that no problem tells of. What a
client reads of a payload is its result, or the type, the message and the field of its one problem. -/
theorem mutation_ends {s : Setup} {name : String} {act : Act} (known : act? name = some act)
    (args : Arguments) (service : Service) :
    let clientMutationId := (args.record "input").text? "clientMutationId"
    let out := (field s name args).run.carryOut service
    Ending act.kind clientMutationId (faults s name args service) out.1 ∧
      (∀ loaders key inner,
        mutation s loaders [.field key name args inner] service = respond s loaders key inner out ∧
          ∀ f, out.1 = .error f →
            mutation s loaders [.field key name args inner] service = (.ofFault [.key key] f, out.2)) ∧
      (faults s name args service = [] → ∃ e : Entity,
        out.1 = .ok (.node (.payload ⟨act.kind, clientMutationId, some e, []⟩)) ∧ ∀ loaders key,
          (mutation s loaders [.field key name args (payloadFields (resultName name))] service).1 =
            ⟨.object [(key, .object [
              ("clientMutationId", clientMutationId.elim .null .text),
              ("problems", .list []),
              (resultName name, .object [("id", .text (GlobalId.encode ⟨act.kind, e.id⟩))])])], []⟩) ∧
      (∀ f, faults s name args service = [f] → f.code ≠ .unauthorized → f.code ≠ .internal →
        ∀ loaders key,
          (mutation s loaders [.field key name args (payloadFields (resultName name))] service).1 =
            ⟨.object [(key, .object [
              ("clientMutationId", clientMutationId.elim .null .text),
              ("problems", .list [.object [("type", .text f.code.label), ("message", .text f.message),
                ("field", f.field.elim .null fun x => .list [.text x])]]),
              (resultName name, .null)])], []⟩) ∧
      ∀ f, faults s name args service = [f] → f.code = .unauthorized ∨ f.code = .internal →
        ∀ loaders key inner, (mutation s loaders [.field key name args inner] service).1 =
          ⟨.null, [⟨[.key key], f⟩]⟩ := by
  intro clientMutationId out
  -- what the client reads hangs on the ending alone, so each part is a case of it
  have ending : Ending act.kind clientMutationId (faults s name args service) out.1 :=
    ending_field known args service
  have answer (loaders : LoaderSettings) (key : String) (inner : List Selection) :
      mutation s loaders [.field key name args inner] service = respond s loaders key inner out ∧
        ∀ f, out.1 = .error f →
          mutation s loaders [.field key name args inner] service = (.ofFault [.key key] f, out.2) := by
    have answer := mutation_field s loaders known key args inner service
    refine ⟨answer, fun f failed => answer.trans ?_⟩
    rw [← respond_error s loaders key inner f out.2, ← failed]
  refine ⟨ending, answer, fun none => ?_, fun f one authorized external loaders key => ?_,
    fun f one code loaders key inner => ?_⟩
  · rw [none] at ending
    generalize came : out.1 = o at ending
    cases ending with
    | result e of_kind =>
      refine ⟨e, rfl, fun loaders key => ?_⟩
      rw [mutation_told known came loaders key, ← of_kind]
      rfl
  · rw [one] at ending
    generalize came : out.1 = o at ending
    cases ending with
    | problem _ p _ _ type message field =>
      rw [mutation_told known came loaders key]
      simp [type, message, field]
    | error _ code => exact (code.elim authorized external).elim
  · rw [one] at ending
    generalize came : out.1 = o at ending
    cases ending with
    | problem _ _ authorized external => exact (code.elim authorized external).elim
    | error _ => exact congrArg Prod.fst ((answer loaders key inner).2 f came)

def welcome : Arguments :=
  [("input", .record [("clientMutationId", .text "m-1"), ("namespacePath", .text "ops"),
    ("userId", .text (GlobalId.encode ⟨.user, "6f1c2b3a-0000-4000-8000-000000000001"⟩)),
    ("role", .text "owner")])]

def guarded : Service :=
  (Service.new smallStore).arm "get_role_by_name" ⟨.unauthorized, "sign in", none⟩

def staffedStore : Store :=
  { smallStore with roles := [⟨"x", "owner", "", [], "admin", .fresh⟩] }

def joined (service : Service) : Response :=
  (mutation (.complete .standard) .standard
    [.field "join" "createNamespaceMembership" welcome (payloadFields "membership")] service).1

/-- The same input on three services ends in the three ways. -/
theorem mutation_ends_welcome :
    act? "createNamespaceMembership" = some ⟨.append, .namespaceMembership⟩ ∧
    Ending .namespaceMembership (some "m-1") [⟨.unauthorized, "sign in", some "role"⟩]
      ((field (.complete .standard) "createNamespaceMembership" welcome).run.carryOut guarded).1 ∧
    joined guarded = ⟨.null, [⟨[.key "join"], ⟨.unauthorized, "sign in", some "role"⟩⟩]⟩ ∧
    joined (.new smallStore) = ⟨.object [("join", .object [
      ("clientMutationId", .text "m-1"),
      ("problems", .list [.object [("type", .text "NOT_FOUND"), ("message", .text "role owner not found"),
        ("field", .list [.text "role"])]]),
      ("membership", .null)])], []⟩ ∧
    ∃ id, joined (.new staffedStore) = ⟨.object [("join", .object [
      ("clientMutationId", .text "m-1"),
      ("problems", .list []),
      ("membership", .object [("id", .text (GlobalId.encode ⟨.namespaceMembership, id⟩))])])], []⟩ := by
  have known : act? "createNamespaceMembership" = some ⟨.append, .namespaceMembership⟩ := rfl
  have refused : faults (.complete .standard) "createNamespaceMembership" welcome guarded =
      [⟨.unauthorized, "sign in", some "role"⟩] := by
    decide +kernel
  have missed : faults (.complete .standard) "createNamespaceMembership" welcome (.new smallStore) =
      [⟨.notFound, "role owner not found", some "role"⟩] := by
    decide +kernel
  have none : faults (.complete .standard) "createNamespaceMembership" welcome (.new staffedStore) = [] := by
    decide +kernel
  obtain ⟨ending, -, -, -, error⟩ :=
    mutation_ends (s := .complete .standard) known welcome guarded
  obtain ⟨-, -, -, problem, -⟩ :=
    mutation_ends (s := .complete .standard) known welcome (.new smallStore)
  obtain ⟨-, -, result, -⟩ :=
    mutation_ends (s := .complete .standard) known welcome (.new staffedStore)
  obtain ⟨e, -, shown⟩ := result none
  exact ⟨known, refused ▸ ending, error _ refused (.inl rfl) _ _ _,
    problem _ missed (by simp) (by simp) _ _, e.id, shown _ _⟩

end Mutation

end InfraGraph.Api

import InfraGraph.Proofs.Api.Outcomes
import InfraGraph.Proofs.Catalog.Writes
import InfraGraph.Proofs.Graph.Atomic

/-!
What mutations do to the store. The steps before a write only read, and a write is the last step, so a
mutation that fails at any of them leaves the store as it was. One that succeeds has replaced, removed or
appended the entity that it answers with, which is the one that its input names.
-/

namespace InfraGraph

def Store.idAt? (s : Store) : Kind → String → Option String
  | .group, path => (s.groups.find? (·.fullPath = path)).map (·.id)
  | .workspace, path => (s.workspaces.find? (·.fullPath = path)).map (·.id)
  | _, _ => none

theorem Store.find?_of_first {α : Type} {items : List α} {test : α → Bool} {what name : String} {a : α}
    (h : Store.first items test what name = .ok a) : items.find? test = some a := by
  unfold Store.first at h
  split at h
  · cases h
  · next found =>
    cases h
    exact found

namespace Api

open InfraGraph.Graph
open Resolver (Atomic Finds Kept finds_ofExcept finds_ask atomic_ask kept_write finds_pure)

def named? (s : Store) (kind : Kind) : (id path : Option String) → Option String
  | some text, _ => (decodeId kind text).toOption
  | none, some path => s.idAt? kind path
  | none, none => none

def Locator.lead? (l : Locator) (s : Store) (kind : Kind) : Option String :=
  match l with
  | .id i => some i
  | .path p => s.idAt? kind p

theorem named?_of_locate {kind : Kind} {id path : Option String} {l : Locator}
    (h : locate kind id path = .ok l) (st : Store) : named? st kind id path = l.lead? st kind := by
  unfold locate at h
  rcases id with _ | text <;> rcases path with _ | p <;> dsimp only at h
  · cases h
  · cases h
    rfl
  · cases decoded : decodeId kind text with
    | error f => simp [decoded] at h
    | ok i =>
      rw [decoded] at h
      cases h
      simp [named?, decoded, Except.toOption, Locator.lead?]
  · cases h

theorem finds_located {st : Store} {kind : Kind} {id path : Option String}
    {f : Locator → Resolver String} (byId : ∀ i, f (.id i) = pure i)
    (byPath : ∀ p, Finds (f (.path p)) st fun i => st.idAt? kind p = some i) :
    Finds (Resolver.ofExcept (locate kind id path) >>= f) st
      fun i => named? st kind id path = some i := by
  refine Finds.bind (finds_ofExcept fun l same => named?_of_locate same st) fun l named => ?_
  rw [named]
  cases l with
  | id i => exact byId i ▸ finds_pure rfl
  | path p => exact byPath p

theorem finds_groupId (st : Store) (id path : Option String) :
    Finds (groupId id path) st fun i => named? st .group id path = some i :=
  finds_located (fun _ => rfl) fun p =>
    (finds_ask rfl fun _ answer => answer).bind fun g answer => finds_pure <| by
      have found : st.groups.find? (·.fullPath = p) = some g := Store.find?_of_first answer
      simp [Store.idAt?, found]

theorem finds_workspaceId (st : Store) (id path : Option String) :
    Finds (workspaceId id path) st fun i => named? st .workspace id path = some i :=
  finds_located (fun _ => rfl) fun p =>
    (finds_ask rfl fun _ answer => answer).bind fun w answer => finds_pure <| by
      have found : st.workspaces.find? (·.fullPath = p) = some w := Store.find?_of_first answer
      simp [Store.idAt?, found]

theorem finds_decoded (st : Store) (kind : Kind) (text : String) :
    Finds (Resolver.ofExcept (decodeId kind text)) st
      fun i => named? st kind (some text) none = some i :=
  finds_ofExcept fun i decoded => by simp [named?, decoded, Except.toOption]

namespace Mutation

def target? (name : String) (input : Arguments) (s : Store) : Option String :=
  match name with
  | "updateGroup" | "deleteGroup" => named? s .group (input.id? "id") (input.text? "groupPath")
  | "updateWorkspace" | "deleteWorkspace" =>
      named? s .workspace (input.id? "id") (input.text? "workspacePath")
  | "updateNamespaceMembership" | "deleteNamespaceMembership" =>
      named? s .namespaceMembership (some (input.id "id")) none
  | "cancelRun" => named? s .run (some (input.id "runId")) none
  | "deleteTerraformModule" => named? s .terraformModule (some (input.id "id")) none
  | "deleteVcsProvider" => named? s .vcsProvider (some (input.id "id")) none
  | _ => none

/-- What a mutation has done to a store once it answers with an entity. -/
def Act.Effect (act : Act) (target : Option String) (e : Entity) (s s' : Store) : Prop :=
  match act.edit with
  | .amend => target = some e.id ∧ s.Amends act.kind e s'
  | .remove => target = some e.id ∧ s.Removes act.kind e s'
  | .append => s.Appends act.kind e s'

theorem done_to_named {target : Option String} {i : String} {e : Entity} {done : Prop}
    (named : target = some i) (h : e.id = i ∧ done) : target = some e.id ∧ done :=
  ⟨named.trans (congrArg some h.1.symm), h.2⟩

section Written

variable {α : Type} {t : Store.Table α} {target : Option String} {i : String} {version : Option Int}
  {service : Service} {st : Store}

theorem kept_amend {change : α → α} (named : target = some i)
    (keeps : ∀ a, (t.wrap (change a)).id = (t.wrap a).id) (same : service.store = st) :
    Kept st (fun a st' => target = some (t.wrap a).id ∧ st.Amends t.kind (t.wrap a) st')
      (service.write (service.store.amend t i version change)) :=
  kept_write same fun _ _ ok => done_to_named named (Store.amend_ok keeps (same ▸ ok))

theorem kept_remove (named : target = some i) (unique : ((st.entities t.kind).map Entity.id).Nodup)
    (plain : t.kind ≠ .terraformModule) (same : service.store = st) :
    Kept st (fun a st' => target = some (t.wrap a).id ∧ st.Removes t.kind (t.wrap a) st')
      (service.write (service.store.remove t i version)) :=
  kept_write same fun _ _ ok => done_to_named named (Store.remove_removes unique plain (same ▸ ok))

end Written

theorem finds_roleNamed (st : Store) (name : String) : Finds (roleNamed name) st fun _ => True :=
  (finds_ask (q := .roleNamed name) rfl fun _ _ => trivial).attempt.bind fun _ _ =>
    finds_ofExcept fun _ _ => trivial

/-- Every mutation does what it does to the store at once, or fails and leaves the store alone. -/
theorem Makes.atomic {input : Arguments} {name : String} {act : Act} {α : Type} {wrap : α → Entity}
    {write : Resolver α} (h : Makes input name act α wrap write) {st : Store} (distinct : st.Distinct) :
    Atomic write st fun a st' => act.Effect (target? name input st) (wrap a) st st' := by
  cases h with
  | updateGroup =>
    exact (finds_groupId st _ _).bind fun i named => atomic_ask fun _ same =>
      kept_amend (t := .groups) named (by intro _; rfl) same
  | deleteGroup =>
    exact (finds_groupId st _ _).bind fun i named => atomic_ask fun _ same => kept_write same
      fun g st' ok => done_to_named named (Store.deleteGroup_ok (distinct .group) (same ▸ ok))
  | updateWorkspace =>
    exact (finds_workspaceId st _ _).bind fun i named => atomic_ask fun _ same =>
      kept_amend (t := .workspaces) named (by intro _; rfl) same
  | deleteWorkspace =>
    exact (finds_workspaceId st _ _).bind fun i named => atomic_ask fun _ same =>
      kept_remove (t := .workspaces) named (distinct .workspace) (by decide) same
  | createMembership =>
    exact (finds_ofExcept fun _ => id).bind fun member _ => (finds_roleNamed st _).bind fun role _ =>
      atomic_ask fun s same => same ▸ Store.addMembership_appends _ _
  | updateMembership =>
    exact (finds_decoded st _ _).bind fun i named => (finds_roleNamed st _).bind fun role _ =>
      atomic_ask fun _ same => kept_amend (t := .memberships) named (by intro _; rfl) same
  | deleteMembership =>
    exact (finds_decoded st _ _).bind fun i named => atomic_ask fun _ same =>
      kept_remove (t := .memberships) named (distinct .namespaceMembership) (by decide) same
  | createRun =>
    exact (finds_workspaceId st _ _).bind fun i _ => atomic_ask fun s same =>
      same ▸ Store.addRun_appends _ _
  | cancelRun =>
    exact (finds_decoded st _ _).bind fun i named => atomic_ask fun _ same =>
      kept_amend (t := .runs) named (by intro _; rfl) same
  | deleteModule =>
    exact (finds_decoded st _ _).bind fun i named => atomic_ask fun _ same => kept_write same
      fun m st' ok => done_to_named named (Store.deleteModule_ok (distinct .terraformModule) (same ▸ ok))
  | deleteVcsProvider =>
    exact (finds_decoded st _ _).bind fun i named => atomic_ask fun _ same =>
      kept_remove (t := .vcsProviders) named (distinct .vcsProvider) (by decide) same

end Mutation

theorem respond_store (s : Setup) (loaders : LoaderSettings) (key : String) (inner : List Selection)
    {o : Except Fault (Outcome Node)} (leads : ∀ a, o = .ok a → a.Leads Node.Plain) (service : Service) :
    (respond s loaders key inner (o, service)).2.store = service.store := by
  have fresh : (Work.ofOutcome (schema s) (Work.ofSelections (schema s) inner) o).Fresh
      (Selection.depthAll inner) := .ofOutcome
    (fun position n plain => Work.fresh_ofSelections (schema_reads s) inner position n plain) leads
  exact (fresh.run (Nat.le_succ _) (World.sound_new loaders service)).evolves.store

namespace Mutation

def resultOf : Except Fault (Outcome Node) → Option Entity
  | .ok (.node (.payload p)) => p.result
  | _ => none

/-- The store as it is left: untouched without a result, and else as the result says. -/
def Left (st : Store) (done : Entity → Store → Prop) (out : Except Fault (Outcome Node) × Store) : Prop :=
  match resultOf out.1 with
  | none => out.2 = st
  | some e => done e out.2

theorem left_perform {s : Setup} {kind : Kind} {α : Type} {wrap : α → Entity} {input : Arguments}
    {write : Resolver α} {service : Service} {done : Entity → Store → Prop}
    (h : Atomic write service.store fun a st => done (wrap a) st) :
    let out := (perform s kind wrap input write).run.carryOut service
    Left service.store done (out.1, out.2.store) := by
  intro out
  cases here : s.catalog with
  | false =>
    simp only [out, perform_missing here]
    rfl
  | true =>
    have kept := h service rfl
    simp only [out, carryOut_perform here]
    rcases ended : write.run.carryOut service with ⟨f | a, after⟩ <;> rw [ended] at kept
    · have none : resultOf ((settle kind wrap (input.text? "clientMutationId") (.error f)).map
          fun p => .node (.payload p)) = none := by
        unfold settle
        dsimp only
        cases f.problem? <;> rfl
      rw [Left, none]
      exact kept
    · exact kept

/-- A mutation touches the one entity that it answers with, and nothing if it answers with none. -/
theorem mutation_touches_target {s : Setup} {name : String} {act : Act} (known : act? name = some act)
    (args : Arguments) (service : Service) (distinct : service.store.Distinct)
    (loaders : LoaderSettings) (key : String) (inner : List Selection) :
    Left service.store
      (fun e after => act.Effect (target? name (args.record "input") service.store) e service.store after)
      (((field s name args).run.carryOut service).1,
        (mutation s loaders [.field key name args inner] service).2.store) := by
  have plan : (field s name args).run.Within _ _ 0 := mutation_within name args
  have kept := respond_store s loaders key inner (plan.carryOut service)
    ((field s name args).run.carryOut service).2
  obtain ⟨α, wrap, write, h, field⟩ := makes known args
  rw [mutation_field s loaders known key args inner service, kept, field]
  exact left_perform (h.atomic distinct)

def shelf : Store :=
  { smallStore with
    modules := [
      ⟨"6f1c2b3a-0000-4000-8000-000000000001", "network", "aws", "g", "ops/network", false, "", "admin",
        .fresh⟩,
      ⟨"6f1c2b3a-0000-4000-8000-000000000002", "database", "aws", "g", "ops/database", true, "", "admin",
        .fresh⟩]
    moduleVersions := [
      ⟨"v1", "6f1c2b3a-0000-4000-8000-000000000001", "1.0.0", .uploaded, true, [], "admin", .fresh⟩,
      ⟨"v2", "6f1c2b3a-0000-4000-8000-000000000002", "1.0.0", .uploaded, true, [], "admin", .fresh⟩] }

theorem shelf_distinct : shelf.Distinct := by
  intro kind
  cases kind <;> simp [shelf, smallStore, Store.entities, Entity.id]

def dropNetwork : Arguments :=
  [("input", .record
    [("id", .text (GlobalId.encode ⟨.terraformModule, "6f1c2b3a-0000-4000-8000-000000000001"⟩))])]

theorem mutation_touches_target_module :
    act? "deleteTerraformModule" = some ⟨.remove, .terraformModule⟩ ∧ shelf.Distinct ∧
    (resultOf ((field (.complete .standard) "deleteTerraformModule" dropNetwork).run.carryOut
      (.new shelf)).1).map Entity.id = some "6f1c2b3a-0000-4000-8000-000000000001" ∧
    Left shelf (fun e after => Act.Effect ⟨.remove, .terraformModule⟩
        (target? "deleteTerraformModule" (dropNetwork.record "input") shelf) e shelf after)
      (((field (.complete .standard) "deleteTerraformModule" dropNetwork).run.carryOut (.new shelf)).1,
        (mutation (.complete .standard) ⟨1, 100⟩
          [.field "drop" "deleteTerraformModule" dropNetwork []] (.new shelf)).2.store) := by
  have known : act? "deleteTerraformModule" = some ⟨.remove, .terraformModule⟩ := rfl
  exact ⟨known, shelf_distinct, by decide +kernel,
    mutation_touches_target known dropNetwork (.new shelf) shelf_distinct ⟨1, 100⟩ "drop" []⟩

end Mutation

end Api

end InfraGraph

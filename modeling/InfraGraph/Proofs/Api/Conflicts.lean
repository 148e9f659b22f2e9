import InfraGraph.Proofs.Api.Writes
import InfraGraph.Proofs.Catalog.Versions

/-!
Versions that callers expect. The steps before a write find the entity that the input names whenever there is
one, so with a version that the entity does not have the write is reached, and ends in a conflict. A write
that goes through has met the version that was expected.
-/

namespace InfraGraph

theorem find?_of_nodup {α β : Type} [DecidableEq β] {items : List α} {key : α → β}
    (distinct : (items.map key).Nodup) {a : α} (mem : a ∈ items) :
    items.find? (fun x => key x = key a) = some a := by
  have there : (items.find? fun x => key x = key a).isSome :=
    List.find?_isSome.mpr ⟨a, mem, decide_eq_true rfl⟩
  obtain ⟨x, found⟩ := Option.isSome_iff_exists.mp there
  have same : key x = key a := by simpa using List.find?_some found
  rw [found, List.inj_on_of_nodup_map distinct (List.mem_of_find?_eq_some found) mem same]

theorem Store.entity?_eq_some_iff {s : Store} (distinct : s.Distinct) {kind : Kind} {id : String}
    {e : Entity} : s.entity? kind id = some e ↔ e ∈ s.entities kind ∧ e.id = id := by
  rw [entity?, findRev?_eq_find? (distinct kind)]
  constructor
  · intro h
    exact ⟨List.mem_of_find?_eq_some h, by simpa using List.find?_some h⟩
  · rintro ⟨mem, rfl⟩
    exact find?_of_nodup (distinct kind) mem

def Store.version? (s : Store) (kind : Kind) (id : String) : Option Int :=
  (s.entity? kind id).map (·.metadata.version)

theorem Store.version?_eq_some_iff {s : Store} (distinct : s.Distinct) {kind : Kind} {id : String}
    {v : Int} : s.version? kind id = some v ↔
      ∃ e ∈ s.entities kind, e.id = id ∧ e.metadata.version = v := by
  simp only [version?, Option.map_eq_some_iff, entity?_eq_some_iff distinct, and_assoc]

namespace Api

open InfraGraph.Graph
open Resolver (Atomic Comes Kept comes_ofExcept comes_pure comes_ask comes_read finds_ofExcept finds_pure
  atomic_ask kept_write)

section Found

variable {st : Store} {kind : Kind} {id path : Option String} {i : String}

theorem ok_of_faultOf {α : Type} {e : Except Fault α} (sound : faultOf e = none) : ∃ a, e = .ok a := by
  cases e with
  | error f => cases sound
  | ok a => exact ⟨a, rfl⟩

theorem comes_decoded {text : String} (sound : faultOf (decodeId kind text) = none)
    (named : named? st kind (some text) none = some i) :
    Comes (Resolver.ofExcept (decodeId kind text)) st (.ok i) := by
  obtain ⟨j, decoded⟩ := ok_of_faultOf sound
  have same : j = i := by simpa [named?, decoded, Except.toOption] using named
  rw [decoded, same]
  exact comes_ofExcept _

theorem comes_located {f : Locator → Resolver String} (sound : faultOf (locate kind id path) = none)
    (named : named? st kind id path = some i) (byId : ∀ i, f (.id i) = pure i)
    (byPath : ∀ p, st.idAt? kind p = some i → Comes (f (.path p)) st (.ok i)) :
    Comes (Resolver.ofExcept (locate kind id path) >>= f) st (.ok i) := by
  obtain ⟨l, located⟩ := ok_of_faultOf sound
  rw [named?_of_locate located] at named
  rw [located]
  refine (comes_ofExcept _).bind ?_
  cases l with
  | id j =>
    obtain rfl : j = i := Option.some.inj named
    rw [byId]
    exact comes_pure j
  | path p => exact byPath p named

theorem comes_groupId (sound : faultOf (locate .group id path) = none)
    (named : named? st .group id path = some i) : Comes (groupId id path) st (.ok i) := by
  refine comes_located sound named (fun _ => rfl) fun p there => ?_
  obtain ⟨g, found, rfl⟩ := Option.map_eq_some_iff.mp there
  have asked : Comes (Resolver.ask (.groupAt p)) st (.ok g) :=
    comes_read rfl (Store.first_of_find? found "group" p)
  exact asked.bind (comes_pure g.id)

theorem comes_workspaceId (sound : faultOf (locate .workspace id path) = none)
    (named : named? st .workspace id path = some i) : Comes (workspaceId id path) st (.ok i) := by
  refine comes_located sound named (fun _ => rfl) fun p there => ?_
  obtain ⟨w, found, rfl⟩ := Option.map_eq_some_iff.mp there
  have asked : Comes (Resolver.ask (.workspaceAt p)) st (.ok w) :=
    comes_read rfl (Store.first_of_find? found "workspace" p)
  exact asked.bind (comes_pure w.id)

theorem comes_roleNamed {name : String} (known : ∃ r ∈ st.roles, r.name = name) :
    ∃ r, Comes (Mutation.roleNamed name) st (.ok r) := by
  obtain ⟨r, mem, named⟩ := known
  have there : (st.roles.find? (·.name = name)).isSome :=
    List.find?_isSome.mpr ⟨r, mem, decide_eq_true named⟩
  obtain ⟨r, found⟩ := Option.isSome_iff_exists.mp there
  have asked : Comes (Resolver.ask (.roleNamed name)) st (.ok r) :=
    comes_read rfl (Store.first_of_find? found "role" name)
  exact ⟨r, asked.attempt.bind (comes_ofExcept (.ok r))⟩

end Found

namespace Mutation

def Edit.leave : Edit → Metadata → Metadata
  | .amend, m => m.bump
  | _, m => m

variable {input : Arguments} {name : String} {act : Act} {α : Type} {wrap : α → Entity}
  {write : Resolver α} {st : Store}

theorem kept_met {β : Type} {kind : Kind} {into : β → Entity} {change : Metadata → Metadata} {i : String}
    {version : Option Int} {service : Service} {out : Except Fault (β × Store)}
    (guarded : service.store.Guarded kind into change i version out) (same : service.store = st) :
    Kept st (fun b _ => st.Met kind change version (into b)) (service.write out) :=
  kept_write same fun b st' ok => same ▸ guarded.met b st' ok

theorem Makes.met (h : Makes input name act α wrap write) (changes : act.edit ≠ .append) (st : Store) :
    Atomic write st fun a _ => st.Met act.kind act.edit.leave (input.int? "version") (wrap a) := by
  cases h with
  | createMembership => exact absurd rfl changes
  | createRun => exact absurd rfl changes
  | updateGroup =>
    exact (finds_groupId st _ _).bind fun i _ => atomic_ask fun _ =>
      kept_met (Store.guarded_amend (t := .groups) (by intro _; rfl) (by intro _; rfl))
  | deleteGroup =>
    exact (finds_groupId st _ _).bind fun i _ => atomic_ask fun _ =>
      kept_met (Store.deleteGroup_guarded _)
  | updateWorkspace =>
    exact (finds_workspaceId st _ _).bind fun i _ => atomic_ask fun _ =>
      kept_met (Store.guarded_amend (t := .workspaces) (by intro _; rfl) (by intro _; rfl))
  | deleteWorkspace =>
    exact (finds_workspaceId st _ _).bind fun i _ => atomic_ask fun _ =>
      kept_met (Store.guarded_remove .workspaces)
  | updateMembership =>
    exact (finds_decoded st _ _).bind fun i _ => (finds_roleNamed st _).bind fun r _ => atomic_ask fun _ =>
      kept_met (Store.guarded_amend (t := .memberships) (by intro _; rfl) (by intro _; rfl))
  | deleteMembership =>
    exact (finds_decoded st _ _).bind fun i _ => atomic_ask fun _ =>
      kept_met (Store.guarded_remove .memberships)
  | cancelRun =>
    exact (finds_decoded st _ _).bind fun i _ => atomic_ask fun _ =>
      kept_met (Store.guarded_amend (t := .runs) (by intro _; rfl) (by intro _; rfl))
  | deleteModule =>
    exact (finds_decoded st _ _).bind fun i _ => atomic_ask fun _ =>
      kept_met Store.deleteModule_guarded
  | deleteVcsProvider =>
    exact (finds_decoded st _ _).bind fun i _ => atomic_ask fun _ =>
      kept_met (Store.guarded_remove .vcsProviders)

theorem comes_refused {q : Request} {f : Fault} {r : Except Fault (q.Reply × Store)} (refused : r = .error f)
    (writes : ∀ s : Service, s.store = st → s.perform q = s.write r) :
    Comes (Resolver.ask q) st (.error f) :=
  comes_ask fun s same => by rw [writes s same, refused]; rfl

structure Resolves (name : String) (input : Arguments) (st : Store) (i : String) : Prop where
  sound : flaw? name input = none
  named : target? name input st = some i
  role : name = "updateNamespaceMembership" → ∃ r ∈ st.roles, r.name = input.text "role"

theorem Makes.stale (h : Makes input name act α wrap write) (changes : act.edit ≠ .append) {i : String}
    (resolves : Resolves name input st i) {e : Entity}
    (found : (st.entities act.kind).find? (·.id = i) = some e) {v : Int}
    (given : input.int? "version" = some v) (stale : v ≠ e.metadata.version) :
    Comes write st (.error Store.versionConflict) := by
  obtain ⟨sound, named, role⟩ := resolves
  cases h with
  | createMembership => exact absurd rfl changes
  | createRun => exact absurd rfl changes
  | updateGroup =>
    exact (comes_groupId sound named).bind <| comes_refused
      (Store.amend_stale (t := .groups) found given stale) fun _ same => by rw [← same]; rfl
  | deleteGroup =>
    exact (comes_groupId sound named).bind <| comes_refused
      ((Store.deleteGroup_guarded _).refused e v found given stale) fun _ same => by rw [← same]; rfl
  | updateWorkspace =>
    exact (comes_workspaceId sound named).bind <| comes_refused
      (Store.amend_stale (t := .workspaces) found given stale) fun _ same => by rw [← same]; rfl
  | deleteWorkspace =>
    exact (comes_workspaceId sound named).bind <| comes_refused
      (Store.remove_stale (t := .workspaces) found given stale) fun _ same => by rw [← same]; rfl
  | updateMembership =>
    obtain ⟨r, known⟩ := comes_roleNamed (role rfl)
    exact (comes_decoded sound named).bind <| known.bind <| comes_refused
      (Store.amend_stale (t := .memberships) found given stale) fun _ same => by rw [← same]; rfl
  | deleteMembership =>
    exact (comes_decoded sound named).bind <| comes_refused
      (Store.remove_stale (t := .memberships) found given stale) fun _ same => by rw [← same]; rfl
  | cancelRun =>
    exact (comes_decoded sound named).bind <| comes_refused
      (Store.amend_stale (t := .runs) found given stale) fun _ same => by rw [← same]; rfl
  | deleteModule =>
    exact (comes_decoded sound named).bind <| comes_refused
      (Store.deleteModule_guarded.refused e v found given stale) fun _ same => by rw [← same]; rfl
  | deleteVcsProvider =>
    exact (comes_decoded sound named).bind <| comes_refused
      (Store.remove_stale (t := .vcsProviders) found given stale) fun _ same => by rw [← same]; rfl

end Mutation

end Api

end InfraGraph

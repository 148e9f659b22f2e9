import InfraGraph.Api.Operation
import InfraGraph.Proofs.Api.Reads
import InfraGraph.Proofs.Graph.Run

/-!
Queries against a reference that knows no loaders. The reference resolves field after field and finds
each entity in the store where it is asked for. Batches and their delays, and what was asked before,
leave no trace in a response.
-/

namespace InfraGraph

/-- No two entities of a kind have the same identifier. -/
def Store.Distinct (s : Store) : Prop :=
  ∀ kind, ((s.entities kind).map Entity.id).Nodup

theorem findRev?_eq_find? {items : List Entity} (unique : (items.map Entity.id).Nodup) (id : String) :
    items.findRev? (·.id = id) = items.find? (·.id = id) := by
  induction items with
  | nil => rfl
  | cons e rest ih =>
    obtain ⟨absent, unique⟩ := List.nodup_cons.mp unique
    rw [List.findRev?, ih unique, List.find?_cons]
    by_cases here : e.id = id
    · have none : rest.find? (·.id = id) = none := by
        simp only [List.find?_eq_none, decide_eq_true_eq]
        exact fun x mem same => absent (List.mem_map.mpr ⟨x, mem, same.trans here.symm⟩)
      simp [here, none]
    · cases rest.find? (·.id = id) <;> simp [here]

namespace Api

open InfraGraph.Graph

def directView (s : Store) : View :=
  ⟨s.answer, fun x => .ok ((s.entities x.kind).find? (·.id = x.id))⟩

/-- The response to a query that is resolved field by field. -/
def naive (s : Setup) (sels : List Selection) (store : Store) : Response :=
  .ofResult (Reading.object (Reading.ofSelections (schema s) (directView store) sels []
    Node.query.typeName .query)).result

theorem directView_eq {s : Store} (distinct : s.Distinct) : directView s = .ofStore s := by
  have same : ∀ x : Lookup, (s.entities x.kind).find? (·.id = x.id) = s.entity? x.kind x.id :=
    fun x => (findRev?_eq_find? (distinct x.kind) x.id).symm
  simp only [directView, View.ofStore, same]
  rfl

theorem fresh_ofRoot (s : Setup) (sels : List Selection) {n : Node} (plain : n.Plain) :
    (Work.object (Work.ofRoot (schema s) sels n)).Fresh (Selection.depthAll sels) :=
  .object (Work.fresh_ofSelections (schema_reads s) sels _ n plain)

theorem run_ofRoot (s : Setup) (sels : List Selection) {n : Node} (plain : n.Plain) {w : World}
    (sound : w.Sound) {v : View} (sees : v.Shows w) (path : List Segment)
    (unhit : w.Unhit
      ((Work.object (Work.ofRoot (schema s) sels n)).run (Selection.depthAll sels) w).2) :
    ((Work.object (Work.ofRoot (schema s) sels n)).run (Selection.depthAll sels) w).1.result path =
      (Reading.object (Reading.ofSelections (schema s) v sels path n.typeName n)).result := by
  have completes := (fresh_ofRoot s sels plain).run (Nat.le_refl _) sound
  rw [completes.result_eq unhit sees, ← Work.readFields_ofSelections, ← Work.read_object]
  rfl

/-- Batched execution agrees with naive resolution; so neither the settings of the loaders nor what was
asked before shows in a response. -/
theorem query_eq_naive (s : Setup) (loaders : LoaderSettings) (sels : List Selection)
    (service : Service) (calm : service.armed = []) (distinct : service.store.Distinct) :
    (query s loaders sels service).1 = naive s sels service.store ∧
      ∀ (loaders' : LoaderSettings) (service' : Service), service'.armed = [] →
        service'.store = service.store →
          (query s loaders' sels service').1 = (query s loaders sels service).1 := by
  have agrees : ∀ (loaders : LoaderSettings) (service' : Service), service'.armed = [] →
      service'.store = service.store → (query s loaders sels service').1 = naive s sels service.store := by
    intro loaders service' calm store
    have sound := World.sound_new loaders service'
    have plain : Node.query.Plain := by simp [Node.Plain]
    have unhit := ((fresh_ofRoot s sels plain).run (Nat.le_refl _) sound).evolves.unhit calm
    have result := run_ofRoot s sels plain sound (View.ofStore_shows loaders service') [] unhit
    rw [store, ← directView_eq distinct] at result
    exact congrArg Response.ofResult result
  refine ⟨agrees loaders service calm rfl, fun loaders' service' calm' store => ?_⟩
  rw [agrees loaders' service' calm' store, agrees loaders service calm rfl]

def smallStore : Store where
  users := []
  serviceAccounts := []
  groups := [⟨"g", "ops", "old", "ops", none, "admin", .fresh⟩]
  workspaces := [⟨"w", "api", "", "ops/api", "g", 60, false, "admin", .fresh⟩]
  memberships := []
  teams := []
  roles := []
  runs := [⟨"r", "w", .pending, false, none, none, none, false, "admin", .fresh⟩]
  modules := []
  moduleVersions := []
  providers := []
  vcsProviders := []
  activityEvents := []

theorem smallStore_distinct : smallStore.Distinct := by
  intro kind
  cases kind <;> simp [smallStore, Store.entities]

def textAt (path : List String) (v : Value) : Option String :=
  let step (v : Option Value) (key : String) : Option Value :=
    match v with
    | some (.object members) => members.lookup key
    | _ => none
  match path.foldl step (some v) with
  | some (.text t) => some t
  | _ => none

theorem query_eq_naive_small :
    (Service.new smallStore).armed = [] ∧ (Service.new smallStore).store.Distinct ∧
    (query (.complete .standard) ⟨1, 100⟩
      [.field "workspace" "workspace" [("fullPath", .text "ops/api")]
        [.field "group" "group" [] [.field "name" "name" [] []]]] (.new smallStore)).1 =
      naive (.complete .standard)
        [.field "workspace" "workspace" [("fullPath", .text "ops/api")]
          [.field "group" "group" [] [.field "name" "name" [] []]]] smallStore :=
  ⟨rfl, smallStore_distinct, (query_eq_naive _ _ _ _ rfl smallStore_distinct).1⟩

end Api

end InfraGraph

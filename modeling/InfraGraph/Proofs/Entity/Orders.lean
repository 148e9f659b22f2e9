import InfraGraph.Entity.Sorting
import Mathlib.Data.List.Nodup

/-!
The types of entity that can be listed, and the orders of each. The keys of a type sort by different
fields, so an order of a type is known by its field and its direction.
-/

namespace InfraGraph

inductive Sortable
  | user
  | serviceAccount
  | group
  | workspace
  | team
  | role
  | run
  | terraformModule
  | terraformModuleVersion
  | terraformProvider
  | vcsProvider
  | activityEvent
  deriving DecidableEq, Repr

namespace Sortable

@[reducible]
def Item : Sortable → Type
  | user => User
  | serviceAccount => ServiceAccount
  | group => Group
  | workspace => Workspace
  | team => Team
  | role => Role
  | run => Run
  | terraformModule => TerraformModule
  | terraformModuleVersion => TerraformModuleVersion
  | terraformProvider => TerraformProvider
  | vcsProvider => VcsProvider
  | activityEvent => ActivityEvent

instance listed : (t : Sortable) → Listed t.Item
  | user => inferInstanceAs (Listed User)
  | serviceAccount => inferInstanceAs (Listed ServiceAccount)
  | group => inferInstanceAs (Listed Group)
  | workspace => inferInstanceAs (Listed Workspace)
  | team => inferInstanceAs (Listed Team)
  | role => inferInstanceAs (Listed Role)
  | run => inferInstanceAs (Listed Run)
  | terraformModule => inferInstanceAs (Listed TerraformModule)
  | terraformModuleVersion => inferInstanceAs (Listed TerraformModuleVersion)
  | terraformProvider => inferInstanceAs (Listed TerraformProvider)
  | vcsProvider => inferInstanceAs (Listed VcsProvider)
  | activityEvent => inferInstanceAs (Listed ActivityEvent)

theorem fields_nodup (t : Sortable) : ((Listed.keys (α := t.Item)).map (·.field)).Nodup := by
  cases t <;> decide

end Sortable

namespace Order

variable {α : Type} [Listed α]

theorem mem_all_iff {o : Order α} : o ∈ all α ↔ o.key ∈ Listed.keys (α := α) := by
  obtain ⟨key, direction⟩ := o
  cases direction <;> simp [all]

theorem key_eq_of_field (distinct : ((Listed.keys (α := α)).map (·.field)).Nodup) {o o' : Order α}
    (mem : o ∈ all α) (mem' : o' ∈ all α) (same : o.key.field = o'.key.field) : o.key = o'.key :=
  List.inj_on_of_nodup_map distinct (mem_all_iff.mp mem) (mem_all_iff.mp mem') same

theorem all_pairwise (distinct : ((Listed.keys (α := α)).map (·.field)).Nodup) :
    (all α).Pairwise fun o o' => ¬ (o.key.field = o'.key.field ∧ o.direction = o'.direction) := by
  rw [all, List.pairwise_flatMap]
  constructor
  · intro k _
    simp
  · refine (List.pairwise_map.mp distinct).imp fun {k k'} apart => ?_
    intro o mem o' mem' alike
    simp only [List.mem_cons, List.not_mem_nil, or_false] at mem mem'
    apply apart
    rcases mem with rfl | rfl <;> rcases mem' with rfl | rfl <;> exact alike.1

theorem apart (distinct : ((Listed.keys (α := α)).map (·.field)).Nodup) {i j : Fin (all α).length}
    (other : i ≠ j) : ¬ (((all α).get i).key.field = ((all α).get j).key.field ∧
      ((all α).get i).direction = ((all α).get j).direction) := by
  have pairs := List.pairwise_iff_getElem.mp (all_pairwise distinct)
  rcases Nat.lt_or_gt_of_ne (Fin.val_ne_of_ne other) with before | behind
  · exact pairs i j i.isLt j.isLt before
  · rintro ⟨field, direction⟩
    exact pairs j i j.isLt i.isLt behind ⟨field.symm, direction.symm⟩

end Order

end InfraGraph

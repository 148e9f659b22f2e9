import InfraGraph.Listing.Order
import Mathlib.Data.List.Nodup

/-!
Sorted listings. An order compares by text and then by identifier, in its direction, so it is transitive
and total and leaves only entities of one identifier level.
-/

namespace InfraGraph.Order

open Std

variable {α : Type} [Listed α]

theorem compare_eq (o : Order α) : o.compare = fun a b =>
    o.direction.apply (compareLex (compareOn o.key.text) (compareOn Listed.id) a b) := rfl

instance transCmp (o : Order α) : TransCmp o.compare := by
  rw [compare_eq]
  cases o.direction with
  | ascending =>
    exact inferInstanceAs (TransCmp (compareLex (compareOn o.key.text) (compareOn Listed.id)))
  | descending =>
    have swapped : (fun a b => (compareLex (compareOn o.key.text) (compareOn Listed.id) a b).swap) =
        fun a b => compareLex (compareOn o.key.text) (compareOn Listed.id) b a := by
      funext a b
      exact OrientedCmp.eq_swap.symm
    simp only [Direction.apply]
    rw [swapped]
    infer_instance

theorem id_eq_of_compare {o : Order α} {a b : α} (h : o.compare a b = .eq) :
    Listed.id a = Listed.id b := by
  have lex : compareLex (compareOn o.key.text) (compareOn Listed.id) a b = .eq := by
    rw [compare_eq] at h
    cases hd : o.direction with
    | ascending => simpa [hd, Direction.apply] using h
    | descending => simpa [hd, Direction.apply] using h
  rw [compareLex_eq_eq] at lex
  exact LawfulEqOrd.eq_of_compare lex.2

theorem le_eq (o : Order α) (a b : α) : o.le a b = (o.compare a b).isLE := by
  rw [le]
  cases o.compare a b <;> rfl

theorem sort_perm (o : Order α) (items : List α) : (o.sort items).Perm items :=
  List.mergeSort_perm items o.le

theorem sort_pairwise (o : Order α) (items : List α) :
    (o.sort items).Pairwise fun a b => (o.compare a b).isLE := by
  have trans : ∀ a b c, o.le a b → o.le b c → o.le a c := by
    intro a b c
    simp only [le_eq]
    exact TransCmp.isLE_trans
  have total : ∀ a b, o.le a b || o.le b a := by
    intro a b
    have swap : o.compare a b = (o.compare b a).swap := OrientedCmp.eq_swap
    simp only [le_eq, swap]
    cases o.compare b a <;> rfl
  have sorted : (o.sort items).Pairwise fun a b => o.le a b := List.pairwise_mergeSort trans total items
  exact sorted.imp fun h => by rwa [le_eq] at h

theorem sort_strict {items : List α} (distinct : (items.map Listed.id).Nodup) (o : Order α) :
    (o.sort items).Pairwise fun a b => o.compare a b = .lt := by
  have apart : (o.sort items).Pairwise fun a b => Listed.id a ≠ Listed.id b :=
    List.pairwise_map.mp ((o.sort_perm items).map Listed.id |>.nodup_iff.mpr distinct)
  refine ((o.sort_pairwise items).and apart).imp fun {a b} ⟨le, ne⟩ => ?_
  cases h : o.compare a b with
  | lt => rfl
  | eq => exact absurd (id_eq_of_compare h) ne
  | gt => simp [h] at le

end InfraGraph.Order

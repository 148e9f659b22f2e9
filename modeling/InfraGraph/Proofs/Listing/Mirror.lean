import InfraGraph.Proofs.Entity.Orders
import InfraGraph.Proofs.Listing.Windows

/-!
Listings turned round. The orders of one field and opposite directions sort a list to reverses of each other,
as the identifiers that break ties are turned round as well. So what one order shows from the beginning, the
other shows from the end.
-/

namespace InfraGraph

variable {α : Type}

namespace Order

variable [Listed α]

theorem compare_reverse (o : Order α) (a b : α) : o.reverse.compare a b = o.compare b a := by
  have swap : o.compare b a = (o.compare a b).swap := Std.OrientedCmp.eq_swap
  rw [swap]
  obtain ⟨key, direction⟩ := o
  cases direction with
  | ascending => rfl
  | descending => exact Ordering.swap_swap.symm

theorem sort_reverse {items : List α} (distinct : (items.map Listed.id).Nodup) (o : Order α) :
    o.reverse.sort items = (o.sort items).reverse := by
  have perm : (o.reverse.sort items).Perm (o.sort items).reverse :=
    ((o.reverse.sort_perm items).trans (o.sort_perm items).symm).trans (List.reverse_perm _).symm
  have turned : (o.sort items).reverse.Pairwise fun a b => o.reverse.compare a b = .lt := by
    rw [List.pairwise_reverse]
    refine (sort_strict distinct o).imp fun {a b} before => ?_
    rwa [compare_reverse]
  refine perm.eq_of_pairwise (fun a b _ _ ab ba => ?_) (sort_strict distinct o.reverse) turned
  have swap : o.reverse.compare a b = (o.reverse.compare b a).swap := Std.OrientedCmp.eq_swap
  rw [ab, ba] at swap
  cases swap

theorem eq_reverse (fields : ((Listed.keys (α := α)).map (·.field)).Nodup) {o o' : Order α}
    (mem : o ∈ all α) (mem' : o' ∈ all α) (field : o.key.field = o'.key.field)
    (direction : o.direction ≠ o'.direction) : o' = o.reverse := by
  have key := key_eq_of_field fields mem mem' field
  obtain ⟨key', direction'⟩ := o'
  obtain rfl : o.key = key' := key
  have opposite : direction' = o.direction.reverse := by
    cases h : o.direction <;> cases direction' <;> simp_all [Direction.reverse]
  rw [opposite, reverse]

end Order

namespace Page

def mirror (p : Page α) : Page α :=
  ⟨p.items.reverse, p.hasPrevious, p.hasNext, p.total⟩

theorem mirror_mirror (p : Page α) : p.mirror.mirror = p := by
  simp [mirror]

theorem cut_reverse {items : List α} {start stop : Nat} (ordered : start ≤ stop)
    (inside : stop ≤ items.length) :
    cut items.reverse (items.length - stop) (items.length - start) = (cut items start stop).mirror := by
  have shown : (items.reverse.drop (items.length - stop)).take (items.length - start - (items.length - stop)) =
      ((items.drop start).take (stop - start)).reverse := by
    have ends : items.length - start - (items.length - stop) = stop - start := by omega
    have length : (items.take stop).length = stop := by rw [List.length_take, Nat.min_eq_left inside]
    rw [ends, List.drop_reverse, Nat.sub_sub_self inside, List.take_reverse, length,
      Nat.sub_sub_self ordered, List.drop_take]
  have next : items.length - start < items.length ↔ 0 < start := by omega
  have previous : 0 < items.length - stop ↔ stop < items.length := by omega
  simp only [cut, mirror, shown, List.length_reverse, next, previous]

variable [Listed α]

theorem position_reverse {items : List α} (distinct : (items.map Listed.id).Nodup) {c c' : Cursor}
    (same : c.id = c'.id) :
    position items.reverse c' = (position items c).map (items.length - 1 - ·) := by
  cases found : position items c with
  | error f =>
    obtain ⟨rfl, absent⟩ := position_eq_error_iff.mp found
    have absent' : ∀ a ∈ items.reverse, Listed.id a ≠ c'.id := by
      intro a mem
      rw [← same]
      exact absent a (List.mem_reverse.mp mem)
    exact position_eq_error_iff.mpr ⟨rfl, absent'⟩
  | ok i =>
    obtain ⟨inside, here⟩ := position_eq_ok found
    have distinct' : (items.reverse.map Listed.id).Nodup :=
      ((List.reverse_perm items).map Listed.id).nodup_iff.mpr distinct
    show position items.reverse c' = .ok (items.length - 1 - i)
    refine position_of_id distinct' (by rw [List.length_reverse]; omega) ?_
    rw [List.getElem_reverse, ← same, ← here]
    congr 2
    omega

/-- Counting back before a cursor of the list turned round shows what counting forward after it shows. -/
theorem ofSorted_reverse {sorted : List α} (distinct : (sorted.map Listed.id).Nodup) {n : Nat}
    (held : sorted.length + n < 18446744073709551616) {c c' : Option Cursor}
    (same : c.map (·.id) = c'.map (·.id)) :
    ofSorted sorted.reverse (.backward n c') = (ofSorted sorted (.forward n c)).map mirror := by
  have small : word64 n = n := word64_of_lt (by omega)
  match c, c', same with
  | none, none, _ =>
    have shown := cut_reverse (Nat.zero_le _) (Nat.min_le_left sorted.length n)
    have start : sorted.length - min sorted.length n = sorted.length - n := by omega
    rw [start, Nat.sub_zero] at shown
    simp only [ofSorted, small, List.length_reverse, shown]
    rfl
  | some c, some c', same =>
    simp only [ofSorted, position_reverse distinct (Option.some.inj same), small]
    cases found : position sorted c with
    | error f => rfl
    | ok i =>
      obtain ⟨inside, -⟩ := position_eq_ok found
      have count : word64 ((i : Int) + 1 + n) = i + 1 + n := word64_of_lt (n := i + 1 + n) (by omega)
      have ordered : i + 1 ≤ min sorted.length (i + 1 + n) := by omega
      have shown := cut_reverse ordered (Nat.min_le_left _ _)
      have start : sorted.length - min sorted.length (i + 1 + n) = sorted.length - 1 - i - n := by omega
      have stop : sorted.length - (i + 1) = sorted.length - 1 - i := by omega
      rw [start, stop] at shown
      show Except.ok _ = Except.ok _
      rw [count, shown]

/-- Two orders of a type, of one field and opposite directions, show mirror images. The first items after a
cursor in the one are the last before it in the other, and the last before it are the first after it: either
both are refused for the cursor, or the pages have the same items in reverse, what is behind the one is before
the other, and the totals agree. This is for lists and sizes that can be counted in 64 bits together, as lists
in memory and sizes of 32 bits can. -/
theorem opposite_orders_mirror (t : Sortable) (o o' : Order t.Item) (offered : o ∈ Order.all t.Item)
    (offered' : o' ∈ Order.all t.Item) (field : o.key.field = o'.key.field)
    (direction : o.direction ≠ o'.direction) (items : List t.Item) (distinct : (items.map Listed.id).Nodup)
    (n : Nat) (held : items.length + n < 18446744073709551616) (c c' : Option Cursor)
    (same : c.map (·.id) = c'.map (·.id)) :
    ofList o' (.backward n c') items = (ofList o (.forward n c) items).map mirror ∧
    ofList o' (.forward n c') items = (ofList o (.backward n c) items).map mirror := by
  obtain rfl := Order.eq_reverse t.fields_nodup offered offered' field direction
  have sorted : ((o.sort items).map Listed.id).Nodup :=
    ((o.sort_perm items).map Listed.id).nodup_iff.mpr distinct
  have length := (o.sort_perm items).length_eq
  have turned : ((o.sort items).reverse.map Listed.id).Nodup :=
    ((List.reverse_perm _).map Listed.id).nodup_iff.mpr sorted
  have ahead := ofSorted_reverse sorted (by rwa [length]) same
  have back := ofSorted_reverse turned (by rwa [List.length_reverse, length]) same.symm
  simp only [ofList, Order.sort_reverse distinct]
  refine ⟨ahead, ?_⟩
  rw [List.reverse_reverse] at back
  rw [back]
  cases ofSorted (o.sort items).reverse (.forward n c') with
  | error f => rfl
  | ok p => exact congrArg Except.ok p.mirror_mirror.symm

theorem opposite_orders_mirror_roles :
    ∃ p : Page Role,
      ofList Listed.standard (.forward 2 (some ⟨1, "name", .ascending, "deployer", "1"⟩)) fourRoles.reverse =
        .ok p ∧
      p.items.map (·.id) = ["2", "3"] ∧ p.hasPrevious = true ∧
      ofList (Order.reverse Listed.standard) (.backward 2 (some ⟨1, "name", .descending, "deployer", "1"⟩))
        fourRoles.reverse = .ok p.mirror := by
  let o : Order Role := Listed.standard
  let c : Cursor := ⟨1, "name", .ascending, "deployer", "1"⟩
  let c' : Cursor := ⟨1, "name", .descending, "deployer", "1"⟩
  have offered : o ∈ Order.all Role := Order.mem_all_iff.mpr (.head _)
  have offered' : o.reverse ∈ Order.all Role := Order.mem_all_iff.mpr (.head _)
  have sorted : o.sort fourRoles.reverse = fourRoles.reverse := List.mergeSort_of_pairwise (by decide)
  have page : ofList o (.forward 2 (some c)) fourRoles.reverse = .ok (cut fourRoles.reverse 1 3) := by
    rw [ofList, sorted]
    rfl
  obtain ⟨mirrored, -⟩ := opposite_orders_mirror .role o o.reverse offered offered' rfl (by decide)
    fourRoles.reverse (by decide) 2 (by decide) (some c) (some c') rfl
  exact ⟨_, page, rfl, rfl, mirrored.trans (congrArg (Except.map mirror) page)⟩

end Page

end InfraGraph

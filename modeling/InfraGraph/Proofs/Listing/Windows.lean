import InfraGraph.Entity.Sorting
import InfraGraph.Listing.Page
import InfraGraph.Proofs.Listing.Sorting

/-!
What a window shows of a listing. The sorted list falls into three parts: what lies before the page, the
page, and what comes after it. A window says where one end of the page is and how long the page may be; the
flags tell whether the outer parts have anything in them.
-/

namespace InfraGraph

variable {α : Type}

namespace Order

variable [Listed α]

/-- One entity stands before another, by text and then by identifier, or the other way round. -/
def Precedes (o : Order α) (a b : α) : Prop :=
  match o.direction with
  | .ascending =>
      o.key.text a < o.key.text b ∨ o.key.text a = o.key.text b ∧ Listed.id a < Listed.id b
  | .descending =>
      o.key.text b < o.key.text a ∨ o.key.text b = o.key.text a ∧ Listed.id b < Listed.id a

theorem compare_text_eq_lt_iff {s t : String} : Ord.compare s t = .lt ↔ s < t :=
  compareOfLessAndEq_eq_lt

theorem compare_eq_lt_iff {o : Order α} {a b : α} : o.compare a b = .lt ↔ o.Precedes a b := by
  unfold Order.compare Precedes Direction.apply
  cases o.direction with
  | ascending =>
    simp only [Ordering.then_eq_lt, compare_text_eq_lt_iff, Std.compare_eq_iff_eq]
  | descending =>
    simp only [Ordering.swap_eq_lt, Ordering.then_eq_gt, Std.OrientedCmp.gt_iff_lt,
      compare_text_eq_lt_iff, Std.compare_eq_iff_eq]
    rw [eq_comm]

theorem sort_eq_of_perm {items items' : List α} (distinct : (items.map Listed.id).Nodup)
    (same : items'.Perm items) (o : Order α) : o.sort items' = o.sort items := by
  have distinct' : (items'.map Listed.id).Nodup := (same.map _).nodup_iff.mpr distinct
  have perm := ((o.sort_perm items').trans same).trans (o.sort_perm items).symm
  refine perm.eq_of_pairwise (fun a b _ _ ab ba => ?_) (sort_strict distinct' o) (sort_strict distinct o)
  have swap : o.compare a b = (o.compare b a).swap := Std.OrientedCmp.eq_swap
  rw [ab, ba] at swap
  cases swap

end Order

namespace Window

def cursor? : Window → Option Cursor
  | forward _ c => c
  | backward _ c => c

/-- Where a page stands: next to the item of the cursor, or else at the end of the list. It is of the size
of the window, unless the list is too short for that. -/
def Places [Listed α] (pre items post : List α) : Window → Prop
  | forward n after =>
      (match after with
        | none => pre = []
        | some c => ∃ front a, pre = front ++ [a] ∧ Listed.id a = c.id) ∧
      (items.length : Int) = min n (items ++ post).length
  | backward n before =>
      (match before with
        | none => post = []
        | some c => ∃ a rest, post = a :: rest ∧ Listed.id a = c.id) ∧
      (items.length : Int) = min n (pre ++ items).length

end Window

namespace Page

/-- What lies before a page of a sorted list, and what comes after it. -/
structure Splits (sorted pre post : List α) (p : Page α) : Prop where
  whole : sorted = pre ++ p.items ++ post
  previous : p.hasPrevious = true ↔ pre ≠ []
  next : p.hasNext = true ↔ post ≠ []
  total : p.total = sorted.length

theorem cut_splits {sorted : List α} {start stop : Nat} (ordered : start ≤ stop)
    (inside : stop ≤ sorted.length) :
    Splits sorted (sorted.take start) (sorted.drop stop) (cut sorted start stop) where
  whole := by
    have ends : start + (stop - start) = stop := by omega
    have rest : sorted.drop stop = (sorted.drop start).drop (stop - start) := by
      rw [List.drop_drop, ends]
    rw [rest, cut, List.append_assoc, List.take_append_drop, List.take_append_drop]
  previous := by
    have nonempty : sorted.take start ≠ [] ↔ 0 < start := by
      rw [← List.length_pos_iff, List.length_take]
      omega
    rw [nonempty]
    exact decide_eq_true_iff
  next := by
    have nonempty : sorted.drop stop ≠ [] ↔ stop < sorted.length := by
      rw [← List.length_pos_iff, List.length_drop]
      omega
    rw [nonempty]
    exact decide_eq_true_iff
  total := rfl

theorem cut_length {sorted : List α} {start stop : Nat} (inside : stop ≤ sorted.length) :
    (cut sorted start stop).items.length = stop - start := by
  simp only [cut, List.length_take, List.length_drop]
  omega

theorem word64_of_lt {n : Nat} (small : n < 18446744073709551616) : word64 n = n := by
  unfold word64
  omega

theorem cut_forward {sorted : List α} {start : Nat} (inside : start ≤ sorted.length) (n : Nat) :
    let p := cut sorted start (min sorted.length (start + n))
    let post := sorted.drop (min sorted.length (start + n))
    Splits sorted (sorted.take start) post p ∧
      (p.items.length : Int) = min (n : Int) (p.items ++ post).length := by
  intro p post
  have length : p.items.length = _ := cut_length (Nat.min_le_left _ _)
  refine ⟨cut_splits (by omega) (Nat.min_le_left _ _), ?_⟩
  rw [List.length_append, length, List.length_drop]
  omega

theorem cut_backward {sorted : List α} {stop : Nat} (inside : stop ≤ sorted.length) (n : Nat) :
    let p := cut sorted (stop - n) stop
    let pre := sorted.take (stop - n)
    Splits sorted pre (sorted.drop stop) p ∧
      (p.items.length : Int) = min (n : Int) (pre ++ p.items).length := by
  intro p pre
  have length : p.items.length = _ := cut_length inside
  refine ⟨cut_splits (by omega) inside, ?_⟩
  rw [List.length_append, length, List.length_take]
  omega

variable [Listed α]

theorem position_eq_error_iff {items : List α} {c : Cursor} {f : Fault} :
    position items c = .error f ↔ f = noMatch ∧ ∀ a ∈ items, Listed.id a ≠ c.id := by
  unfold position
  cases found : items.findIdx? (Listed.id · = c.id) with
  | none =>
    have absent := List.findIdx?_eq_none_iff.mp found
    simp only [decide_eq_false_iff_not] at absent
    exact ⟨fun h => ⟨(Except.error.inj h).symm, absent⟩, fun h => by rw [h.1]⟩
  | some i =>
    obtain ⟨inside, here, -⟩ := List.findIdx?_eq_some_iff_getElem.mp found
    exact ⟨fun h => (by cases h),
      fun h => absurd (of_decide_eq_true here) (h.2 _ (List.getElem_mem inside))⟩

theorem position_eq_ok {items : List α} {c : Cursor} {i : Nat} (h : position items c = .ok i) :
    ∃ inside : i < items.length, Listed.id items[i] = c.id := by
  unfold position at h
  split at h
  · cases h
  · next j found =>
    cases h
    obtain ⟨inside, here, -⟩ := List.findIdx?_eq_some_iff_getElem.mp found
    exact ⟨inside, of_decide_eq_true here⟩

theorem position_map_ok {items : List α} {c : Cursor} {page : Nat → Page α} {p : Page α}
    (h : (position items c).map page = .ok p) :
    ∃ (i : Nat) (inside : i < items.length), Listed.id items[i] = c.id ∧ p = page i := by
  cases found : position items c with
  | error f => rw [found] at h; cases h
  | ok i =>
    rw [found] at h
    obtain ⟨inside, here⟩ := position_eq_ok found
    exact ⟨i, inside, here, (Except.ok.inj h).symm⟩

theorem ofSorted_eq_cut {sorted : List α} {w : Window} {p : Page α} (h : ofSorted sorted w = .ok p) :
    ∃ start stop, p = cut sorted start stop := by
  match w with
  | .forward n none => exact ⟨_, _, (Except.ok.inj h).symm⟩
  | .backward n none => exact ⟨_, _, (Except.ok.inj h).symm⟩
  | .forward n (some c) =>
    obtain ⟨i, -, -, page⟩ := position_map_ok h
    exact ⟨_, _, page⟩
  | .backward n (some c) =>
    obtain ⟨i, -, -, page⟩ := position_map_ok h
    exact ⟨_, _, page⟩

theorem position_of_id {items : List α} (distinct : (items.map Listed.id).Nodup) {c : Cursor} {i : Nat}
    (inside : i < items.length) (here : Listed.id items[i] = c.id) : position items c = .ok i := by
  have found : items.findIdx? (Listed.id · = c.id) = some i := by
    rw [List.findIdx?_eq_some_iff_getElem]
    refine ⟨inside, decide_eq_true here, fun j before => ?_⟩
    have apart := List.pairwise_iff_getElem.mp (List.pairwise_map.mp distinct) j i (by omega) inside before
    exact fun same => apart ((of_decide_eq_true same).trans here.symm)
  simp only [position, found]

theorem ofSorted_eq_error_iff {sorted : List α} {w : Window} {f : Fault} :
    ofSorted sorted w = .error f ↔
      f = noMatch ∧ ∃ c, w.cursor? = some c ∧ ∀ a ∈ sorted, Listed.id a ≠ c.id := by
  have searched : ∀ (c : Cursor) (page : Nat → Page α),
      (position sorted c).map page = .error f ↔
        f = noMatch ∧ ∀ a ∈ sorted, Listed.id a ≠ c.id := by
    intro c page
    rw [← position_eq_error_iff]
    cases position sorted c <;> simp [Except.map]
  match w with
  | .forward n none => simp [ofSorted, Window.cursor?]
  | .backward n none => simp [ofSorted, Window.cursor?]
  | .forward n (some c) =>
    simp only [Window.cursor?, Option.some.injEq, exists_eq_left']
    exact searched c _
  | .backward n (some c) =>
    simp only [Window.cursor?, Option.some.injEq, exists_eq_left']
    exact searched c _

theorem ofSorted_eq_ok {sorted : List α} {w : Window} {p : Page α} (fits : sorted.length < 2147483648)
    (counts : 0 ≤ w.size ∧ w.size < 2147483648) (h : ofSorted sorted w = .ok p) :
    ∃ pre post, Splits sorted pre post p ∧ w.Places pre p.items post := by
  obtain ⟨n, size⟩ := Int.eq_ofNat_of_zero_le counts.1
  have small : n < 2147483648 := by omega
  match w with
  | .forward _ none =>
    obtain rfl : _ = (n : Int) := size
    cases h
    have count : word64 n = 0 + n := by rw [word64_of_lt (by omega), Nat.zero_add]
    rw [count]
    obtain ⟨splits, length⟩ := cut_forward (Nat.zero_le sorted.length) n
    exact ⟨_, _, splits, rfl, length⟩
  | .forward _ (some c) =>
    obtain rfl : _ = (n : Int) := size
    obtain ⟨i, inside, here, rfl⟩ := position_map_ok h
    have count : word64 ((i : Int) + 1 + n) = i + 1 + n := word64_of_lt (n := i + 1 + n) (by omega)
    rw [count]
    obtain ⟨splits, length⟩ := cut_forward (Nat.succ_le_of_lt inside) n
    exact ⟨_, _, splits, ⟨_, _, List.take_succ_eq_append_getElem inside, here⟩, length⟩
  | .backward _ none =>
    obtain rfl : _ = (n : Int) := size
    cases h
    rw [word64_of_lt (by omega)]
    obtain ⟨splits, length⟩ := cut_backward (Nat.le_refl sorted.length) n
    exact ⟨_, _, splits, List.drop_length, length⟩
  | .backward _ (some c) =>
    obtain rfl : _ = (n : Int) := size
    obtain ⟨i, inside, here, rfl⟩ := position_map_ok h
    rw [word64_of_lt (by omega)]
    obtain ⟨splits, length⟩ := cut_backward (Nat.le_of_lt inside) n
    exact ⟨_, _, splits, ⟨_, _, List.drop_eq_getElem_cons inside, here⟩, length⟩

/-- A page of a list whose entities have different identifiers. It is refused if and only if the cursor is
of no entity in the list; else the sorted list falls into what is before the page, the page, and what is
behind it, as the window says. The order in which the entities are kept does not matter. -/
theorem page_window (o : Order α) (w : Window) (items : List α) (fits : items.length < 2147483648)
    (counts : 0 ≤ w.size ∧ w.size < 2147483648) (distinct : (items.map Listed.id).Nodup) :
    (∀ f, ofList o w items = .error f ↔
      f = .invalidInput "cursor does not match any item" ∧
        ∃ c, w.cursor? = some c ∧ ∀ a ∈ items, Listed.id a ≠ c.id) ∧
    (∀ p, ofList o w items = .ok p →
      p.total = items.length ∧
      ∃ sorted pre post, sorted.Perm items ∧ sorted.Pairwise o.Precedes ∧ Splits sorted pre post p ∧
        w.Places pre p.items post) ∧
    ∀ items', items'.Perm items → ofList o w items' = ofList o w items := by
  have perm := o.sort_perm items
  refine ⟨fun f => ?_, fun p h => ?_, fun items' same => ?_⟩
  · rw [ofList, ofSorted_eq_error_iff]
    simp only [perm.mem_iff]
    rfl
  · have length := perm.length_eq
    obtain ⟨pre, post, splits, places⟩ := ofSorted_eq_ok (length.symm ▸ fits) counts h
    have strict : (o.sort items).Pairwise o.Precedes :=
      (o.sort_strict distinct).imp Order.compare_eq_lt_iff.mp
    exact ⟨splits.total.trans (congrArg Int.ofNat length),
      _, pre, post, perm, strict, splits, places⟩
  · rw [ofList, ofList, Order.sort_eq_of_perm distinct same]

def fourRoles : List Role :=
  [("4", "viewer"), ("3", "owner"), ("2", "deployer"), ("1", "deployer")].map fun (id, name) =>
    ⟨id, name, "", [], "", .fresh⟩

theorem page_window_backward :
    ∃ (p : Page Role) (pre post : List Role),
      ofList Listed.standard (.backward 2 (some ⟨1, "name", .ascending, "viewer", "4"⟩)) fourRoles = .ok p ∧
      p.items.map (·.id) = ["2", "3"] ∧ p.hasPrevious = true ∧ p.hasNext = true ∧ p.total = 4 ∧
      Window.Places pre p.items post (.backward 2 (some ⟨1, "name", .ascending, "viewer", "4"⟩)) := by
  let w : Window := .backward 2 (some ⟨1, "name", .ascending, "viewer", "4"⟩)
  have sorted : (Listed.standard : Order Role).sort fourRoles.reverse = fourRoles.reverse :=
    List.mergeSort_of_pairwise (by decide)
  obtain ⟨-, shown, unordered⟩ := page_window Listed.standard w fourRoles (by decide) (by decide) (by decide)
  have page : ofList Listed.standard w fourRoles = .ok (cut fourRoles.reverse 1 3) := by
    rw [← unordered _ (List.reverse_perm fourRoles), ofList, sorted]
    rfl
  obtain ⟨-, _, pre, post, -, -, -, places⟩ := shown _ page
  exact ⟨_, pre, post, page, rfl, rfl, rfl, rfl, places⟩

end Page

end InfraGraph

import InfraGraph.Proofs.Listing.Windows

/-!
How large a window may be. A size that a request gives is checked against the settings, and the size of the
settings is taken as it is; so windows keep to the maximum as far as the size of the settings does.
-/

namespace InfraGraph

variable {α : Type}

namespace PageRequest

/-- A request that gives a size, or settings whose own size is one that a request could give. -/
def Sized (r : PageRequest) (s : PageSettings) : Prop :=
  r.first.isSome ∨ r.last.isSome ∨ 0 ≤ s.defaultSize ∧ s.defaultSize ≤ s.maxSize

theorem checkSize_eq_ok_iff {argument : String} {max : Int} {size : Option Int} :
    checkSize argument max size = .ok () ↔ ∀ n, size = some n → 0 ≤ n ∧ n ≤ max := by
  cases size with
  | none => exact ⟨nofun, fun _ => rfl⟩
  | some n =>
    simp only [checkSize]
    split_ifs with negative large
    · exact ⟨nofun, fun h => absurd (h n rfl).1 (by omega)⟩
    · exact ⟨nofun, fun h => absurd (h n rfl).2 (by omega)⟩
    · exact ⟨fun _ m same => by cases same; omega, fun _ => rfl⟩

theorem sizes_of_validate {r : PageRequest} {s : PageSettings} (h : r.validate s = .ok ()) :
    (∀ n, r.first = some n → 0 ≤ n ∧ n ≤ s.maxSize) ∧ ∀ n, r.last = some n → 0 ≤ n ∧ n ≤ s.maxSize := by
  unfold validate at h
  split_ifs at h
  cases first : checkSize "first" s.maxSize r.first with
  | error f => rw [first] at h; cases h
  | ok _ =>
    rw [first] at h
    exact ⟨checkSize_eq_ok_iff.mp first, checkSize_eq_ok_iff.mp h⟩

theorem size_of_window {r : PageRequest} {o : Order α} {s : PageSettings} {w : Window}
    (h : r.window o s = .ok w) : r.validate s = .ok () ∧
      (r.first = some w.size ∨ r.last = some w.size ∨
        r.first = none ∧ r.last = none ∧ w.size = s.defaultSize) := by
  unfold window at h
  split at h
  · cases h
  next valid =>
  refine ⟨valid, ?_⟩
  split at h
  · cases h
  split at h
  · cases h
  split at h
  · next first => cases h; exact .inl first
  · next last => cases h; exact .inr (.inl last)
  · next first last =>
    split at h <;> cases h <;> exact .inr (.inr ⟨first, last, rfl⟩)

/-- A window is of an allowed size if and only if the size was given or is one that could be. -/
theorem window_capped_iff {r : PageRequest} {o : Order α} {s : PageSettings} {w : Window}
    (h : r.window o s = .ok w) : 0 ≤ w.size ∧ w.size ≤ s.maxSize ↔ r.Sized s := by
  obtain ⟨valid, size⟩ := size_of_window h
  obtain ⟨first, last⟩ := sizes_of_validate valid
  unfold Sized
  rcases size with given | given | ⟨noFirst, noLast, size⟩
  · simp [given, first _ given]
  · simp [given, last _ given]
  · simp [noFirst, noLast, size]

end PageRequest

namespace Page

theorem cut_length_le (items : List α) (start stop : Nat) :
    (cut items start stop).items.length ≤ stop - start :=
  List.length_take_le _ _

theorem word64_le {n : Int} (nonneg : 0 ≤ n) : (word64 n : Int) ≤ n := by
  unfold word64
  omega

theorem cut_forward_le (items : List α) (start : Nat) {n : Int} (nonneg : 0 ≤ n) :
    ((cut items start (min items.length (word64 (start + n)))).items.length : Int) ≤ n := by
  have length := cut_length_le items start (min items.length (word64 (start + n)))
  have count := word64_le (n := start + n) (by omega)
  omega

theorem cut_backward_le (items : List α) (stop : Nat) {n : Int} (nonneg : 0 ≤ n) :
    ((cut items (stop - word64 n) stop).items.length : Int) ≤ n := by
  have length := cut_length_le items (stop - word64 n) stop
  have count := word64_le nonneg
  omega

theorem ofSorted_length_le [Listed α] {sorted : List α} {w : Window} {p : Page α} (nonneg : 0 ≤ w.size)
    (h : ofSorted sorted w = .ok p) : (p.items.length : Int) ≤ w.size := by
  match w with
  | .forward n none =>
    cases h
    have length := cut_forward_le sorted 0 nonneg
    rwa [Int.natCast_zero, Int.zero_add] at length
  | .forward n (some c) =>
    obtain ⟨i, -, -, rfl⟩ := position_map_ok h
    exact cut_forward_le sorted (i + 1) nonneg
  | .backward n none =>
    cases h
    exact cut_backward_le sorted sorted.length nonneg
  | .backward n (some c) =>
    obtain ⟨i, -, -, rfl⟩ := position_map_ok h
    exact cut_backward_le sorted i nonneg

end Page

end InfraGraph

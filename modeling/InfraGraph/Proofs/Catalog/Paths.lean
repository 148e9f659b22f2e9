import InfraGraph.Catalog.Store
import Mathlib.Data.List.Basic

/-!
Paths as rows of segments. A path is cut at its slashes, and one path is within another if its segments begin
with all segments of the other. Segments may be empty, and a path without slashes is one segment.
-/

namespace InfraGraph

namespace Path

/-- What stands before, between and behind the slashes of a path. -/
def segments (path : String) : List (List Char) :=
  path.toList.splitOn '/'

theorem segments_ne_nil (path : String) : segments path ≠ [] :=
  List.splitOn_ne_nil _ _

theorem intercalate_append {sep : List Char} {xs ys : List (List Char)} (some_x : xs ≠ []) (some_y : ys ≠ []) :
    sep.intercalate (xs ++ ys) = sep.intercalate xs ++ (sep ++ sep.intercalate ys) := by
  induction xs with
  | nil => exact absurd rfl some_x
  | cons x xs ih =>
    cases xs with
    | nil => simp [List.intercalate_cons_of_ne_nil some_y]
    | cons x' xs =>
      have rest := ih (List.cons_ne_nil x' xs)
      simp only [List.cons_append] at rest
      simp only [List.cons_append, List.intercalate_cons_cons, rest, List.append_assoc]

theorem segments_append (path rest : String) :
    segments (path ++ "/" ++ rest) = segments path ++ segments rest := by
  have slash : (path ++ "/" ++ rest).toList = path.toList ++ '/' :: rest.toList := by simp
  rw [segments, slash]
  exact List.splitOnP_append_cons path.toList rest.toList (beq_self_eq_true '/')

theorem segments_isPrefix_iff {root path : String} :
    segments root <+: segments path ↔ path = root ∨ ∃ rest, path = root ++ "/" ++ rest := by
  have joined (p : String) : ['/'].intercalate (segments p) = p.toList := List.intercalate_splitOn '/'
  constructor
  · rintro ⟨more, cut⟩
    by_cases none : more = []
    · left
      rw [← String.toList_inj, ← joined, ← cut, none, List.append_nil, joined]
    · right
      have whole := joined path
      rw [← cut, intercalate_append (segments_ne_nil root) none, joined] at whole
      refine ⟨String.ofList (['/'].intercalate more), String.toList_inj.mp ?_⟩
      rw [← whole]
      simp
  · rintro (rfl | ⟨rest, rfl⟩)
    · exact List.prefix_rfl
    · exact segments_append root rest ▸ List.prefix_append _ _

theorem isWithin_iff {path root : String} : isWithin path root ↔ segments root <+: segments path := by
  have below : isBelow path root ↔ ∃ rest, path = root ++ "/" ++ rest := by
    rw [isBelow, Text.beginsWith, List.isPrefixOf_iff_prefix]
    constructor
    · rintro ⟨rest, whole⟩
      exact ⟨String.ofList rest, String.toList_inj.mp (by simpa using whole.symm)⟩
    · rintro ⟨rest, rfl⟩
      exact ⟨rest.toList, by simp⟩
  rw [segments_isPrefix_iff, ← below, isWithin, Bool.or_eq_true, decide_eq_true_iff]

end Path

namespace Store

/-- The memberships of a path and of the paths above it, as they are kept. -/
def inherited (s : Store) (path : String) : List NamespaceMembership :=
  s.memberships.filter fun m => Path.segments m.namespacePath <+: Path.segments path

theorem membershipsAt_eq (s : Store) (path : String) : s.membershipsAt path = s.inherited path := by
  unfold membershipsAt inherited
  refine List.filter_congr fun m _ => ?_
  rw [Bool.eq_iff_iff, decide_eq_true_iff]
  exact Path.isWithin_iff

theorem inherited_sublist (s : Store) (path rest : String) :
    (s.inherited path).Sublist (s.inherited (path ++ "/" ++ rest)) := by
  refine List.monotone_filter_right _ fun m holds => ?_
  rw [decide_eq_true_iff] at holds ⊢
  rw [Path.segments_append]
  exact holds.trans (List.prefix_append _ _)

end Store

end InfraGraph

import InfraGraph.Proofs.Entity.Orders
import InfraGraph.Proofs.Listing.Windows
import InfraGraph.Proofs.Time.SortText

/-!
Listings by time. Times are sorted by their texts, and in the years 0 to 9999 these are in the order of the
times to the microsecond. So a page of an order by time is a part of one chronological arrangement.
-/

namespace InfraGraph

open Time

def SortField.time? : SortField → Option (Metadata → Instant)
  | createdAt => some (·.createdAt)
  | updatedAt => some (·.updatedAt)
  | _ => none

namespace Sortable

def metadata : (t : Sortable) → t.Item → Metadata
  | user => User.metadata
  | serviceAccount => ServiceAccount.metadata
  | group => Group.metadata
  | workspace => Workspace.metadata
  | team => Team.metadata
  | role => Role.metadata
  | run => Run.metadata
  | terraformModule => TerraformModule.metadata
  | terraformModuleVersion => TerraformModuleVersion.metadata
  | terraformProvider => TerraformProvider.metadata
  | vcsProvider => VcsProvider.metadata
  | activityEvent => ActivityEvent.metadata

theorem text_eq_sortText (t : Sortable) {k : SortKey t.Item} (offered : k ∈ Listed.keys (α := t.Item))
    {time : Metadata → Instant} (field : k.field.time? = some time) (x : t.Item) :
    k.text x = (time (t.metadata x)).sortText := by
  cases t <;> simp only [Listed.keys, List.mem_cons, List.not_mem_nil, or_false] at offered <;>
    rcases offered with rfl | rfl <;> cases field <;> rfl

end Sortable

variable {α : Type}

namespace Page

theorem cut_infix (items : List α) (start stop : Nat) : (cut items start stop).items <:+: items :=
  (List.take_prefix _ _).isInfix.trans (List.drop_suffix _ _).isInfix

theorem cut_all (items : List α) : (cut items 0 items.length).items = items := by
  simp [cut]

end Page

variable [Listed α]

/-- Of two entities the earlier comes first, and of two of one microsecond the one of smaller identifier. -/
def Earlier (time : α → Instant) (x y : α) : Prop :=
  (time x).micros.Before (time y).micros ∨
    (time x).micros = (time y).micros ∧ Listed.id x ≤ Listed.id y

namespace Order

def Chronological (o : Order α) (time : α → Instant) (x y : α) : Prop :=
  match o.direction with
  | .ascending => Earlier time x y
  | .descending => Earlier time y x

theorem compare_text_isLE_iff {s t : String} : (Ord.compare s t).isLE ↔ s ≤ t := by
  have swap : Ord.compare s t = (Ord.compare t s).swap := Std.OrientedCmp.eq_swap
  rw [← String.not_lt, ← compare_text_eq_lt_iff, swap]
  cases Ord.compare t s <;> decide

theorem compare_isLE_iff {o : Order α} {time : α → Instant} {x y : α}
    (text : ∀ z, o.key.text z = (time z).sortText) (hx : (time x).InFourDigits)
    (hy : (time y).InFourDigits) : (o.compare x y).isLE ↔ o.Chronological time x y := by
  have lex {x y : α} (hx : (time x).InFourDigits) (hy : (time y).InFourDigits) :
      ((Ord.compare (o.key.text x) (o.key.text y)).then
        (Ord.compare (Listed.id x) (Listed.id y))).isLE ↔ Earlier time x y := by
    rw [text, text, Ordering.isLE_then_iff_or, compare_text_eq_lt_iff, Std.compare_eq_iff_eq,
      compare_text_isLE_iff, Instant.sortText_lt_iff hx hy, Instant.sortText_eq_iff hx hy, Earlier]
  unfold Order.compare Chronological Direction.apply
  cases o.direction with
  | ascending => exact lex hx hy
  | descending =>
    have swap : ∀ s t : String, (Ord.compare s t).swap = Ord.compare t s := fun s t =>
      Std.OrientedCmp.eq_swap.symm
    simp only [Ordering.swap_then, swap]
    exact lex hy hx

end Order

namespace Page

theorem ofSorted_infix {sorted : List α} {w : Window} {p : Page α} (h : ofSorted sorted w = .ok p) :
    p.items <:+: sorted := by
  obtain ⟨start, stop, rfl⟩ := ofSorted_eq_cut h
  exact cut_infix _ _ _

/-- In the years 0 to 9999 the texts of two times compare as the times do when they are cut to microseconds.
So every order by the time of creation or of the last change, of every type that has such an order, arranges
every list in that direction of time, and of one microsecond by identifier. Every page shows a part of the
arrangement, and a page that is large enough shows all of it. -/
theorem sorted_by_time (a b : Instant) (ha : a.InFourDigits) (hb : b.InFourDigits) (t : Sortable)
    (o : Order t.Item) (offered : o ∈ Order.all t.Item) (time : Metadata → Instant)
    (field : o.key.field.time? = some time) (items : List t.Item)
    (years : ∀ x ∈ items, (time (t.metadata x)).InFourDigits) :
    (a.sortText < b.sortText ↔ a.micros.Before b.micros) ∧
    (a.sortText = b.sortText ↔ a.micros = b.micros) ∧
    ∃ sorted : List t.Item, sorted.Perm items ∧
      sorted.Pairwise (o.Chronological fun x => time (t.metadata x)) ∧
      (∀ w p, ofList o w items = .ok p → p.items <:+: sorted) ∧
      ∀ n : Nat, items.length ≤ n → n < 18446744073709551616 →
        (ofList o (.forward n none) items).map (·.items) = .ok sorted ∧
        (ofList o (.backward n none) items).map (·.items) = .ok sorted := by
  have perm := o.sort_perm items
  have text := t.text_eq_sortText (Order.mem_all_iff.mp offered) field
  have chronological : (o.sort items).Pairwise (o.Chronological fun x => time (t.metadata x)) := by
    refine (o.sort_pairwise items).imp_of_mem fun {x y} memx memy le => ?_
    exact (Order.compare_isLE_iff text (years x (perm.mem_iff.mp memx))
      (years y (perm.mem_iff.mp memy))).mp le
  refine ⟨Instant.sortText_lt_iff ha hb, Instant.sortText_eq_iff ha hb, o.sort items, perm, chronological,
    fun w p page => ofSorted_infix page, fun n large small => ?_⟩
  have length := perm.length_eq
  have stop : min (o.sort items).length n = (o.sort items).length := by omega
  have start : (o.sort items).length - n = 0 := by omega
  simp only [ofList, ofSorted, word64_of_lt small, stop, start, Except.map, cut_all, and_self]

def runsOfNewYear : List Run :=
  [("1", ⟨1483228800, 0⟩), ("2", ⟨1483228799, 1500000000⟩), ("3", ⟨1483228799, 500000999⟩),
    ("4", ⟨1483228799, 500000000⟩)].map fun (id, time) =>
    ⟨id, "w", .applied, false, none, none, none, false, "admin", ⟨time, time, 1⟩⟩

theorem sorted_by_time_leapSecond :
    (⟨1483228799, 1500000000⟩ : Instant).sortText < (⟨1483228800, 0⟩ : Instant).sortText ∧
    ∃ sorted : List Run, sorted.Perm runsOfNewYear ∧
      sorted.Pairwise ((Listed.standard : Order Run).Chronological fun r => r.metadata.createdAt) ∧
      (ofList Listed.standard (.forward 4 none) runsOfNewYear).map (·.items) = .ok sorted := by
  have years : ∀ x ∈ runsOfNewYear, x.metadata.createdAt.InFourDigits := by
    intro x mem
    simp only [runsOfNewYear, List.map_cons, List.map_nil, List.mem_cons, List.not_mem_nil, or_false] at mem
    rcases mem with rfl | rfl | rfl | rfl <;> exact ⟨by decide, by decide, by decide⟩
  obtain ⟨less, -, sorted, perm, chronological, -, all⟩ := sorted_by_time ⟨1483228799, 1500000000⟩
    ⟨1483228800, 0⟩ ⟨by decide, by decide, by decide⟩ ⟨by decide, by decide, by decide⟩ .run Listed.standard
    (Order.mem_all_iff.mpr (.head _)) (·.createdAt) rfl runsOfNewYear years
  exact ⟨less.mpr (by decide), sorted, perm, chronological, (all 4 (by decide) (by decide)).1⟩

end Page

end InfraGraph

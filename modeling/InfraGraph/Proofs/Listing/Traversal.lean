import InfraGraph.Listing.Connection
import InfraGraph.Proofs.Listing.CursorCodec
import InfraGraph.Proofs.Listing.Windows

/-!
Going through a listing page by page. The cursor at the end of a page leads to the page that starts at the
next position, so following it goes through the sorted list in steps of the page size and ends with the
page that reaches the end.
-/

namespace InfraGraph

variable {α ν : Type}

def fetch [Listed α] (o : Order α) (s : PageSettings) (nodeOf : α → ν) (items : List α)
    (r : PageRequest) : Except Fault (Connection ν) :=
  match r.window o s with
  | .error rejection => .error rejection.fault
  | .ok w => (Page.ofList o w items).map (Connection.ofPage o nodeOf)

/-- Asking for one page after another, each after the end of the one before, until there is no next. -/
inductive Walk (ask : Option String → Except Fault (Connection ν)) :
    Option String → List (Connection ν) → Prop
  | last {after : Option String} {page : Connection ν} (answer : ask after = .ok page)
      (done : page.pageInfo.hasNext = false) : Walk ask after [page]
  | more {after : Option String} {page : Connection ν} {pages : List (Connection ν)} {cursor : String}
      (answer : ask after = .ok page) (next : page.pageInfo.hasNext = true)
      (ends : page.pageInfo.endCursor = some cursor) (rest : Walk ask (some cursor) pages) :
      Walk ask after (page :: pages)

theorem Walk.unique {ask : Option String → Except Fault (Connection ν)} {after : Option String}
    {pages pages' : List (Connection ν)} (w : Walk ask after pages) (w' : Walk ask after pages') :
    pages' = pages := by
  induction w generalizing pages' with
  | last answer done =>
    cases w' with
    | last answer' _ => rw [Except.ok.inj (answer'.symm.trans answer)]
    | more answer' next' _ _ =>
      obtain rfl := Except.ok.inj (answer'.symm.trans answer)
      simp [done] at next'
  | more answer next ends _ ih =>
    cases w' with
    | last answer' done' =>
      obtain rfl := Except.ok.inj (answer'.symm.trans answer)
      simp [next] at done'
    | more answer' _ ends' rest' =>
      obtain rfl := Except.ok.inj (answer'.symm.trans answer)
      obtain rfl := Option.some.inj (ends'.symm.trans ends)
      rw [ih rest']

namespace Page

theorem cut_items (items : List α) (start n : Nat) :
    (cut items start (min items.length (start + n))).items = (items.drop start).take n := by
  simp only [cut]
  rw [List.take_eq_take_iff, List.length_drop]
  omega

variable [Listed α]

theorem position_ofItem {items : List α} (distinct : (items.map Listed.id).Nodup) (o : Order α)
    {i : Nat} (inside : i < items.length) : position items (Cursor.ofItem o items[i]) = .ok i :=
  position_of_id distinct inside rfl

end Page

namespace PageRequest

variable [Listed α]

theorem readCursor_ofItem (o : Order α) (a : α) :
    readCursor o (some (Cursor.ofItem o a).encode) = .ok (some (Cursor.ofItem o a)) := by
  have decoded : Cursor.decode (Cursor.ofItem o a).encode = .ok (Cursor.ofItem o a) := by
    rw [Cursor.decode_encode]
    rfl
  have ordered : (Cursor.ofItem o a).forOrder o = .ok (Cursor.ofItem o a) := if_pos ⟨rfl, rfl⟩
  simp only [readCursor, decoded, ordered]
  rfl

omit [Listed α] in
theorem window_forward {o : Order α} {s : PageSettings} {n : Nat} (allowed : n ≤ s.maxSize)
    {after : Option String} {c : Option Cursor} (read : readCursor o after = .ok c) :
    window ⟨some n, none, after, none⟩ o s = .ok (.forward n c) := by
  have valid : validate ⟨some (n : Int), none, after, none⟩ s = .ok () := by
    have nonneg : ¬ (n : Int) < 0 := by omega
    simp [validate, checkSize, nonneg, Int.not_lt.mpr allowed]
  simp only [window, valid, read]
  rfl

end PageRequest

section Walk

variable [Listed α]

def pageAt (o : Order α) (nodeOf : α → ν) (sorted : List α) (n start : Nat) : Connection ν :=
  Connection.ofPage o nodeOf (Page.cut sorted start (min sorted.length (start + n)))

theorem pageAt_edges (o : Order α) (nodeOf : α → ν) (sorted : List α) (n start : Nat) :
    (pageAt o nodeOf sorted n start).edges =
      ((sorted.drop start).take n).map fun a => ⟨(Cursor.ofItem o a).encode, nodeOf a⟩ := by
  rw [← Page.cut_items]
  rfl

theorem pageAt_hasNext (o : Order α) (nodeOf : α → ν) (sorted : List α) (n start : Nat) :
    (pageAt o nodeOf sorted n start).pageInfo.hasNext = decide (start + n < sorted.length) := by
  have same : min sorted.length (start + n) < sorted.length ↔ start + n < sorted.length := by omega
  exact decide_eq_decide.mpr same

theorem pageAt_endCursor (o : Order α) (nodeOf : α → ν) {sorted : List α} {n start i : Nat}
    (last : start + n = i + 1) (pos : 1 ≤ n) (inside : i < sorted.length) :
    (pageAt o nodeOf sorted n start).pageInfo.endCursor =
      some (Cursor.ofItem o sorted[i]).encode := by
  have ends : ((sorted.drop start).take n).getLast? = some sorted[i] := by
    have length : ((sorted.drop start).take n).length = n := by
      rw [List.length_take, List.length_drop]
      omega
    rw [List.getLast?_eq_getElem?, length, List.getElem?_take_of_lt (by omega), List.getElem?_drop,
      show start + (n - 1) = i by omega]
    exact List.getElem?_eq_getElem inside
  have edges := congrArg List.getLast? (pageAt_edges o nodeOf sorted n start)
  rw [List.getLast?_map, ends] at edges
  exact congrArg (Option.map Edge.cursor) edges

variable {items : List α} {s : PageSettings} {n : Nat}

theorem fetch_first (o : Order α) (nodeOf : α → ν) (allowed : n ≤ s.maxSize)
    (small : n < 18446744073709551616) :
    fetch o s nodeOf items ⟨some n, none, none, none⟩ = .ok (pageAt o nodeOf (o.sort items) n 0) := by
  have unread : PageRequest.readCursor o none = .ok none := rfl
  have window := PageRequest.window_forward allowed unread
  simp only [fetch, window, Page.ofList, Page.ofSorted, Page.word64_of_lt small, pageAt, Nat.zero_add]
  rfl

theorem fetch_after (o : Order α) (nodeOf : α → ν) (allowed : n ≤ s.maxSize)
    (distinct : (items.map Listed.id).Nodup) (small : items.length + n < 18446744073709551616)
    {i : Nat} (inside : i < (o.sort items).length) :
    fetch o s nodeOf items ⟨some n, none, some (Cursor.ofItem o (o.sort items)[i]).encode, none⟩ =
      .ok (pageAt o nodeOf (o.sort items) n (i + 1)) := by
  have window := PageRequest.window_forward allowed (PageRequest.readCursor_ofItem o (o.sort items)[i])
  have sorted : ((o.sort items).map Listed.id).Nodup :=
    ((o.sort_perm items).map Listed.id).nodup_iff.mpr distinct
  have length := (o.sort_perm items).length_eq
  have stop : Page.word64 ((i : Int) + 1 + n) = i + 1 + n :=
    Page.word64_of_lt (n := i + 1 + n) (by omega)
  have page : Page.ofList o (.forward n (some (Cursor.ofItem o (o.sort items)[i]))) items =
      .ok (Page.cut (o.sort items) (i + 1) (min (o.sort items).length (i + 1 + n))) := by
    rw [Page.ofList, Page.ofSorted, Page.position_ofItem sorted o inside, ← stop]
    rfl
  simp only [fetch, window, page]
  rfl

theorem walk_pages (o : Order α) (nodeOf : α → ν) (pos : 1 ≤ n) (allowed : n ≤ s.maxSize)
    (distinct : (items.map Listed.id).Nodup) (small : items.length + n < 18446744073709551616)
    (k : Nat) {start : Nat} {after : Option String}
    (here : fetch o s nodeOf items ⟨some n, none, after, none⟩ =
      .ok (pageAt o nodeOf (o.sort items) n start))
    (full : ∀ j < k, start + (j + 1) * n < (o.sort items).length)
    (last : (o.sort items).length ≤ start + (k + 1) * n) :
    Walk (fun after => fetch o s nodeOf items ⟨some n, none, after, none⟩) after
      ((List.range (k + 1)).map fun j => pageAt o nodeOf (o.sort items) n (start + j * n)) := by
  induction k generalizing start after with
  | zero =>
    have done : (pageAt o nodeOf (o.sort items) n start).pageInfo.hasNext = false := by
      rw [pageAt_hasNext, decide_eq_false_iff_not]
      omega
    simpa using Walk.last here done
  | succ k ih =>
    have inside := full 0 (Nat.succ_pos k)
    have next : (pageAt o nodeOf (o.sort items) n start).pageInfo.hasNext = true := by
      rw [pageAt_hasNext, decide_eq_true_iff]
      omega
    obtain ⟨i, hi⟩ : ∃ i, start + n = i + 1 := ⟨start + n - 1, by omega⟩
    have before : i < (o.sort items).length := by omega
    have answer := fetch_after o nodeOf allowed distinct small before
    rw [← hi] at answer
    -- the rest of the walk is the walk that starts one page later
    have rest := ih answer (fun j hj => ?_) ?_
    · rw [List.range_succ_eq_map, List.map_cons, List.map_map]
      have shifted : (fun j => pageAt o nodeOf (o.sort items) n (start + j * n)) ∘ Nat.succ =
          fun j => pageAt o nodeOf (o.sort items) n (start + n + j * n) := by
        funext j
        simp only [Function.comp, Nat.succ_mul]
        rw [Nat.add_comm (j * n), Nat.add_assoc]
      rw [shifted, Nat.zero_mul, Nat.add_zero]
      exact .more here next (pageAt_endCursor o nodeOf hi pos before) rest
    · have := full (j + 1) (Nat.succ_lt_succ hj)
      rw [Nat.succ_mul (j + 1)] at this
      omega
    · rw [Nat.succ_mul (k + 1)] at last
      omega

theorem flatMap_chunks {β : Type} (xs : List β) (n m : Nat) :
    ((List.range m).flatMap fun j => (xs.drop (j * n)).take n) = xs.take (m * n) := by
  induction m with
  | zero => simp
  | succ m ih => rw [List.range_succ, List.flatMap_append, ih, Nat.succ_mul, List.take_add,
      List.flatMap_singleton]

/-- Pages of a size that it takes to show so many items; one if there are none. -/
def pageCount (items n : Nat) : Nat :=
  max 1 ((items + n - 1) / n)

theorem le_pageCount_mul (N : Nat) {n : Nat} (pos : 1 ≤ n) : N ≤ pageCount N n * n := by
  have whole := Nat.div_add_mod (N + n - 1) n
  have part := Nat.mod_lt (N + n - 1) pos
  have more : (N + n - 1) / n * n ≤ pageCount N n * n := Nat.mul_le_mul_right n (Nat.le_max_right _ _)
  rw [Nat.mul_comm] at whole
  omega

theorem lt_pageCount_iff (N : Nat) {n : Nat} (pos : 1 ≤ n) (j : Nat) :
    j + 1 < pageCount N n ↔ (j + 1) * n < N := by
  constructor
  · intro lt
    have below : j + 2 ≤ (N + n - 1) / n := by
      unfold pageCount at lt
      omega
    have whole := (Nat.le_div_iff_mul_le pos).mp below
    rw [Nat.succ_mul (j + 1)] at whole
    omega
  · intro lt
    exact Nat.lt_of_mul_lt_mul_right (Nat.lt_of_lt_of_le lt (le_pageCount_mul N pos))

/-- Following the cursors at the ends of pages, from the first page of a size that is allowed until there
is no next one, never fails and ends. The pages together are the whole list in its order, each item
once; only the last has none behind it, only the first none before it, and each tells the total. -/
theorem forward_walk (o : Order α) (nodeOf : α → ν) (s : PageSettings) (items : List α) (n : Nat)
    (pos : 1 ≤ n) (allowed : n ≤ s.maxSize) (settings : s.maxSize < 2147483648)
    (fits : items.length < 2147483648) (distinct : (items.map Listed.id).Nodup) :
    ∃ pages : List (Connection ν),
      Walk (fun after => fetch o s nodeOf items ⟨some n, none, after, none⟩) none pages ∧
      (∀ pages', Walk (fun after => fetch o s nodeOf items ⟨some n, none, after, none⟩) none pages' →
        pages' = pages) ∧
      pages.length = max 1 ((items.length + n - 1) / n) ∧
      (∃ sorted : List α, sorted.Perm items ∧ sorted.Pairwise (fun a b => o.compare a b = .lt) ∧
        pages.flatMap (·.edges) = sorted.map fun a => ⟨(Cursor.ofItem o a).encode, nodeOf a⟩) ∧
      ∀ (j : Nat) (page : Connection ν), pages[j]? = some page →
        page.pageInfo.hasNext = decide (j + 1 < pages.length) ∧
        page.pageInfo.hasPrevious = decide (0 < j) ∧ page.total = items.length := by
  have length := (o.sort_perm items).length_eq
  have count : 1 ≤ pageCount items.length n := Nat.le_max_left 1 _
  obtain ⟨k, hk⟩ : ∃ k, pageCount items.length n = k + 1 := ⟨_, (Nat.sub_add_cancel count).symm⟩
  have walk : Walk (fun after => fetch o s nodeOf items ⟨some n, none, after, none⟩) none
      ((List.range (k + 1)).map fun j => pageAt o nodeOf (o.sort items) n (0 + j * n)) := by
    refine walk_pages o nodeOf pos allowed distinct (by omega) k
      (fetch_first o nodeOf allowed (by omega)) (fun j hj => ?_) ?_
    · rw [length, Nat.zero_add]
      exact (lt_pageCount_iff items.length pos j).mp (by omega)
    · rw [length, Nat.zero_add, ← hk]
      exact le_pageCount_mul items.length pos
  simp only [Nat.zero_add] at walk
  refine ⟨_, walk, fun pages' walk' => walk.unique walk', ?_, ⟨o.sort items, o.sort_perm items,
    Order.sort_strict distinct o, ?_⟩, fun j page hj => ?_⟩
  · rw [List.length_map, List.length_range, ← hk]
    rfl
  · have all : (o.sort items).take ((k + 1) * n) = o.sort items := by
      refine List.take_of_length_le ?_
      rw [length, ← hk]
      exact le_pageCount_mul items.length pos
    simp only [List.flatMap_map, pageAt_edges]
    rw [← List.map_flatMap, flatMap_chunks, all]
  · obtain ⟨inside, here⟩ := List.getElem?_eq_some_iff.mp hj
    simp only [List.length_map, List.length_range] at inside ⊢
    simp only [List.getElem_map, List.getElem_range] at here
    subst here
    refine ⟨?_, ?_, ?_⟩
    · rw [pageAt_hasNext, length, ← hk, decide_eq_decide, lt_pageCount_iff items.length pos,
        Nat.succ_mul]
    · have start : 0 < j * n ↔ 0 < j := by
        rw [Nat.mul_pos_iff_of_pos_right pos]
      exact decide_eq_decide.mpr start
    · exact congrArg Int.ofNat length

end Walk

def threeRoles : List Role :=
  [("1", "owner"), ("2", "deployer"), ("3", "viewer")].map fun (id, name) => ⟨id, name, "", [], "", .fresh⟩

theorem forward_walk_roles :
    ∃ pages : List (Connection String),
      Walk (fun after => fetch (Listed.standard : Order Role) .standard (·.name) threeRoles
        ⟨some 2, none, after, none⟩) none pages ∧
      pages.length = 2 := by
  obtain ⟨pages, walk, _, count, _⟩ :=
    forward_walk (Listed.standard : Order Role) (·.name) .standard threeRoles 2 (by decide) (by decide)
      (by decide) (by decide) (by decide)
  exact ⟨pages, walk, count⟩

end InfraGraph

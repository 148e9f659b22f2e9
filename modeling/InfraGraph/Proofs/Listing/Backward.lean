import InfraGraph.Proofs.Listing.Traversal

/-!
Going through a listing backward. The cursor at the beginning of a page leads to the page that stops before
it, so following it goes through the sorted list from its end in steps of the page size. The borders of the
pages fall differently from those on the way forward, but both ways show the same list.
-/

namespace InfraGraph

variable {α ν : Type}

/-- Asking for one page after another, each before the beginning of the last one, until there is no previous
page. -/
inductive Retreat (ask : Option String → Except Fault (Connection ν)) :
    Option String → List (Connection ν) → Prop
  | last {before : Option String} {page : Connection ν} (answer : ask before = .ok page)
      (done : page.pageInfo.hasPrevious = false) : Retreat ask before [page]
  | more {before : Option String} {page : Connection ν} {pages : List (Connection ν)} {cursor : String}
      (answer : ask before = .ok page) (previous : page.pageInfo.hasPrevious = true)
      (starts : page.pageInfo.startCursor = some cursor) (rest : Retreat ask (some cursor) pages) :
      Retreat ask before (page :: pages)

theorem Retreat.unique {ask : Option String → Except Fault (Connection ν)} {before : Option String}
    {pages pages' : List (Connection ν)} (w : Retreat ask before pages) (w' : Retreat ask before pages') :
    pages' = pages := by
  induction w generalizing pages' with
  | last answer done =>
    cases w' with
    | last answer' _ => rw [Except.ok.inj (answer'.symm.trans answer)]
    | more answer' previous' _ _ =>
      obtain rfl := Except.ok.inj (answer'.symm.trans answer)
      simp [done] at previous'
  | more answer previous starts _ ih =>
    cases w' with
    | last answer' done' =>
      obtain rfl := Except.ok.inj (answer'.symm.trans answer)
      simp [previous] at done'
    | more answer' _ starts' rest' =>
      obtain rfl := Except.ok.inj (answer'.symm.trans answer)
      obtain rfl := Option.some.inj (starts'.symm.trans starts)
      rw [ih rest']

section Cut

theorem cut_items_take (sorted : List α) (start stop : Nat) :
    (Page.cut sorted start stop).items = (sorted.take stop).drop start := by
  rw [List.drop_take]
  rfl

variable [Listed α]

theorem cut_endCursor (o : Order α) (nodeOf : α → ν) {sorted : List α} {start stop : Nat}
    (inside : stop ≤ sorted.length) {cursor : String}
    (ends : (Connection.ofPage o nodeOf (Page.cut sorted start stop)).pageInfo.endCursor = some cursor) :
    ∃ (i : Nat) (before : i < sorted.length), start ≤ i ∧ stop = i + 1 ∧
      cursor = (Cursor.ofItem o sorted[i]).encode := by
  have last : (Connection.ofPage o nodeOf (Page.cut sorted start stop)).pageInfo.endCursor =
      ((sorted.take stop).drop start).getLast?.map fun a => (Cursor.ofItem o a).encode := by
    rw [← cut_items_take]
    simp [Connection.ofPage, Connection.ofEdges, Function.comp_def]
  rw [last, List.getLast?_drop] at ends
  split at ends
  · simp at ends
  · next far =>
    rw [List.length_take, Nat.min_eq_left inside, Nat.not_le] at far
    have index : (sorted.take stop).getLast? = sorted[stop - 1]? := by
      rw [List.getLast?_eq_getElem?, List.length_take, Nat.min_eq_left inside,
        List.getElem?_take_of_lt (by omega)]
    have before : stop - 1 < sorted.length := by omega
    rw [index, List.getElem?_eq_getElem before] at ends
    exact ⟨stop - 1, before, by omega, by omega, (Option.some.inj ends).symm⟩

end Cut

section Forward

variable [Listed α] {items : List α} {s : PageSettings} {n : Nat}

theorem fetch_behind (o : Order α) (nodeOf : α → ν) (allowed : n ≤ s.maxSize)
    (distinct : (items.map Listed.id).Nodup) {i : Nat} (inside : i < (o.sort items).length) :
    ∃ stop, stop ≤ (o.sort items).length ∧
      fetch o s nodeOf items ⟨some n, none, some (Cursor.ofItem o (o.sort items)[i]).encode, none⟩ =
        .ok (Connection.ofPage o nodeOf (Page.cut (o.sort items) (i + 1) stop)) := by
  have window := PageRequest.window_forward allowed (PageRequest.readCursor_ofItem o (o.sort items)[i])
  have sorted : ((o.sort items).map Listed.id).Nodup :=
    ((o.sort_perm items).map Listed.id).nodup_iff.mpr distinct
  refine ⟨min (o.sort items).length (Page.word64 (i + 1 + n)), Nat.min_le_left _ _, ?_⟩
  simp only [fetch, window, Page.ofList, Page.ofSorted, Page.position_ofItem sorted o inside]
  rfl

/-- A walk that comes to its end has shown all of the sorted list from its first page on. -/
theorem Walk.delivers (o : Order α) (nodeOf : α → ν) (allowed : n ≤ s.maxSize)
    (distinct : (items.map Listed.id).Nodup) {after : Option String} {pages : List (Connection ν)}
    (walk : Walk (fun after => fetch o s nodeOf items ⟨some n, none, after, none⟩) after pages)
    {start : Nat} (first : ∃ stop, stop ≤ (o.sort items).length ∧
      fetch o s nodeOf items ⟨some n, none, after, none⟩ =
        .ok (Connection.ofPage o nodeOf (Page.cut (o.sort items) start stop))) :
    pages.flatMap (·.edges) =
      ((o.sort items).drop start).map fun a => ⟨(Cursor.ofItem o a).encode, nodeOf a⟩ := by
  induction walk generalizing start with
  | last answer done =>
    obtain ⟨stop, inside, shown⟩ := first
    obtain rfl := Except.ok.inj (answer.symm.trans shown)
    have whole : ¬ stop < (o.sort items).length := of_decide_eq_false done
    rw [List.flatMap_singleton, Connection.ofPage, Connection.ofEdges, cut_items_take,
      List.take_of_length_le (by omega)]
  | more answer next ends rest ih =>
    obtain ⟨stop, inside, shown⟩ := first
    obtain rfl := Except.ok.inj (answer.symm.trans shown)
    obtain ⟨i, before, begun, rfl, rfl⟩ := cut_endCursor o nodeOf inside ends
    have parts : (o.sort items).drop start =
        ((o.sort items).take (i + 1)).drop start ++ (o.sort items).drop (i + 1) := by
      rw [← List.drop_append_of_le_length (by rw [List.length_take]; omega), List.take_append_drop]
    rw [List.flatMap_cons, ih (fetch_behind o nodeOf allowed distinct before), parts, List.map_append,
      ← cut_items_take]
    rfl

end Forward

section Backward

theorem PageRequest.window_backward {o : Order α} {s : PageSettings} {n : Nat} (allowed : n ≤ s.maxSize)
    {before : Option String} {c : Option Cursor} (read : readCursor o before = .ok c) :
    window ⟨none, some n, none, before⟩ o s = .ok (.backward n c) := by
  have valid : validate ⟨none, some (n : Int), none, before⟩ s = .ok () := by
    have nonneg : ¬ (n : Int) < 0 := by omega
    simp [validate, checkSize, nonneg, Int.not_lt.mpr allowed]
  have unread : readCursor o none = .ok none := rfl
  simp only [window, valid, read, unread]

variable [Listed α]

def pageUpTo (o : Order α) (nodeOf : α → ν) (sorted : List α) (n stop : Nat) : Connection ν :=
  Connection.ofPage o nodeOf (Page.cut sorted (stop - n) stop)

theorem pageUpTo_edges (o : Order α) (nodeOf : α → ν) (sorted : List α) (n stop : Nat) :
    (pageUpTo o nodeOf sorted n stop).edges =
      ((sorted.take stop).drop (stop - n)).map fun a => ⟨(Cursor.ofItem o a).encode, nodeOf a⟩ := by
  rw [← cut_items_take]
  rfl

theorem pageUpTo_hasPrevious (o : Order α) (nodeOf : α → ν) (sorted : List α) (n stop : Nat) :
    (pageUpTo o nodeOf sorted n stop).pageInfo.hasPrevious = decide (n < stop) := by
  have same : 0 < stop - n ↔ n < stop := by omega
  exact decide_eq_decide.mpr same

theorem pageUpTo_startCursor (o : Order α) (nodeOf : α → ν) {sorted : List α} {n stop : Nat}
    (pos : 1 ≤ n) (nonempty : 1 ≤ stop) (inside : stop ≤ sorted.length) :
    (pageUpTo o nodeOf sorted n stop).pageInfo.startCursor =
      some (Cursor.ofItem o sorted[stop - n]).encode := by
  have begins : ((sorted.take stop).drop (stop - n)).head? = some sorted[stop - n] := by
    rw [List.head?_drop, List.getElem?_take_of_lt (by omega)]
    exact List.getElem?_eq_getElem (by omega)
  have edges := congrArg List.head? (pageUpTo_edges o nodeOf sorted n stop)
  rw [List.head?_map, begins] at edges
  exact congrArg (Option.map Edge.cursor) edges

variable {items : List α} {s : PageSettings} {n : Nat}

theorem fetch_end (o : Order α) (nodeOf : α → ν) (allowed : n ≤ s.maxSize)
    (small : n < 18446744073709551616) :
    fetch o s nodeOf items ⟨none, some n, none, none⟩ =
      .ok (pageUpTo o nodeOf (o.sort items) n (o.sort items).length) := by
  have unread : PageRequest.readCursor o none = .ok none := rfl
  have window := PageRequest.window_backward allowed unread
  simp only [fetch, window, Page.ofList, Page.ofSorted, Page.word64_of_lt small, pageUpTo]
  rfl

theorem fetch_before (o : Order α) (nodeOf : α → ν) (allowed : n ≤ s.maxSize)
    (small : n < 18446744073709551616) (distinct : (items.map Listed.id).Nodup) {i : Nat}
    (inside : i < (o.sort items).length) :
    fetch o s nodeOf items ⟨none, some n, none, some (Cursor.ofItem o (o.sort items)[i]).encode⟩ =
      .ok (pageUpTo o nodeOf (o.sort items) n i) := by
  have window := PageRequest.window_backward allowed (PageRequest.readCursor_ofItem o (o.sort items)[i])
  have sorted : ((o.sort items).map Listed.id).Nodup :=
    ((o.sort_perm items).map Listed.id).nodup_iff.mpr distinct
  simp only [fetch, window, Page.ofList, Page.ofSorted, Page.position_ofItem sorted o inside, pageUpTo,
    Page.word64_of_lt small]
  rfl

theorem retreat_pages (o : Order α) (nodeOf : α → ν) (pos : 1 ≤ n) (allowed : n ≤ s.maxSize)
    (small : n < 18446744073709551616) (distinct : (items.map Listed.id).Nodup) (k : Nat) {stop : Nat}
    {before : Option String} (inside : stop ≤ (o.sort items).length)
    (here : fetch o s nodeOf items ⟨none, some n, none, before⟩ =
      .ok (pageUpTo o nodeOf (o.sort items) n stop))
    (full : ∀ j < k, (j + 1) * n < stop) (last : stop ≤ (k + 1) * n) :
    Retreat (fun before => fetch o s nodeOf items ⟨none, some n, none, before⟩) before
      ((List.range (k + 1)).map fun j => pageUpTo o nodeOf (o.sort items) n (stop - j * n)) := by
  induction k generalizing stop before with
  | zero =>
    have done : (pageUpTo o nodeOf (o.sort items) n stop).pageInfo.hasPrevious = false := by
      rw [pageUpTo_hasPrevious, decide_eq_false_iff_not]
      omega
    simpa using Retreat.last here done
  | succ k ih =>
    have far := full 0 (Nat.succ_pos k)
    have previous : (pageUpTo o nodeOf (o.sort items) n stop).pageInfo.hasPrevious = true := by
      rw [pageUpTo_hasPrevious, decide_eq_true_iff]
      omega
    have starts := pageUpTo_startCursor o nodeOf pos (by omega) inside
    have answer := fetch_before o nodeOf allowed small distinct (i := stop - n) (by omega)
    have rest := ih (by omega) answer (fun j hj => ?_) ?_
    · rw [List.range_succ_eq_map, List.map_cons, List.map_map]
      have shifted : (fun j => pageUpTo o nodeOf (o.sort items) n (stop - j * n)) ∘ Nat.succ =
          fun j => pageUpTo o nodeOf (o.sort items) n (stop - n - j * n) := by
        funext j
        simp only [Function.comp, Nat.succ_mul]
        rw [Nat.sub_sub, Nat.add_comm n]
      rw [shifted, Nat.zero_mul, Nat.sub_zero]
      exact .more here previous starts rest
    · have := full (j + 1) (Nat.succ_lt_succ hj)
      rw [Nat.succ_mul (j + 1)] at this
      omega
    · rw [Nat.succ_mul (k + 1)] at last
      omega

omit [Listed α] in
theorem flatMap_blocks_back (xs : List α) (stop n m : Nat) :
    ((List.range m).reverse.flatMap fun j => (xs.take (stop - j * n)).drop (stop - j * n - n)) =
      (xs.take stop).drop (stop - m * n) := by
  induction m with
  | zero => simp
  | succ m ih =>
    rw [List.range_succ, List.reverse_append, List.reverse_singleton, List.singleton_append,
      List.flatMap_cons, ih, Nat.succ_mul, ← Nat.sub_sub]
    generalize bound : stop - m * n = middle
    have front : (xs.take middle) = (xs.take stop).take middle := by
      rw [List.take_take, Nat.min_eq_left (by omega)]
    rw [front]
    generalize xs.take stop = ys
    by_cases inside : middle ≤ ys.length
    · rw [← List.drop_append_of_le_length (by rw [List.length_take]; omega), List.take_append_drop]
    · rw [List.take_of_length_le (by omega), List.drop_of_length_le (l := ys) (i := middle) (by omega),
        List.append_nil]

theorem flatMap_pages_back (o : Order α) (nodeOf : α → ν) {sorted : List α} {m : Nat}
    (enough : sorted.length ≤ m * n) :
    ((List.range m).map fun j => pageUpTo o nodeOf sorted n (sorted.length - j * n)).reverse.flatMap
        (·.edges) = sorted.map fun a => ⟨(Cursor.ofItem o a).encode, nodeOf a⟩ := by
  rw [← List.map_reverse, List.flatMap_map]
  simp only [pageUpTo_edges]
  rw [← List.map_flatMap, flatMap_blocks_back, List.take_length, Nat.sub_eq_zero_of_le enough]
  rfl

theorem behind_iff {N j : Nat} (pos : 1 ≤ n) (page : j < pageCount N n) : N - j * n < N ↔ 0 < j := by
  cases j with
  | zero => omega
  | succ i =>
    have full := (lt_pageCount_iff N pos i).mp page
    have some_behind : n ≤ (i + 1) * n := Nat.le_mul_of_pos_left n (Nat.succ_pos i)
    omega

theorem exists_walk (o : Order α) (nodeOf : α → ν) (pos : 1 ≤ n) (allowed : n ≤ s.maxSize)
    (distinct : (items.map Listed.id).Nodup) (small : items.length + n < 18446744073709551616) :
    ∃ pages, Walk (fun after => fetch o s nodeOf items ⟨some n, none, after, none⟩) none pages := by
  have length := (o.sort_perm items).length_eq
  have count : pageCount items.length n = (pageCount items.length n - 1) + 1 :=
    (Nat.sub_add_cancel (Nat.le_max_left 1 _)).symm
  refine ⟨_, walk_pages o nodeOf pos allowed distinct small (pageCount items.length n - 1)
    (fetch_first o nodeOf allowed (by omega)) (fun j hj => ?_) ?_⟩
  · rw [length, Nat.zero_add]
    apply (lt_pageCount_iff items.length pos j).mp
    omega
  · rw [length, Nat.zero_add, ← count]
    exact le_pageCount_mul items.length pos

/-- Following the cursors at the beginnings of pages, from the last page of a size that is allowed until
there is no previous one, never fails and ends, after as many pages as the way forward takes. The pages, put
in the reverse order of fetching, show what any walk forward shows that comes to its end, and in a list of
less than `2 ^ 63` items there is such a walk. Only the page that was fetched first has none behind it, and
only the page that was fetched last has none before it. -/
theorem backward_walk (o : Order α) (nodeOf : α → ν) (s : PageSettings) (items : List α) (n : Nat)
    (pos : 1 ≤ n) (allowed : n ≤ s.maxSize) (settings : s.maxSize < 2147483648)
    (distinct : (items.map Listed.id).Nodup) :
    ∃ pages : List (Connection ν),
      Retreat (fun before => fetch o s nodeOf items ⟨none, some n, none, before⟩) none pages ∧
      (∀ pages', Retreat (fun before => fetch o s nodeOf items ⟨none, some n, none, before⟩) none pages' →
        pages' = pages) ∧
      pages.length = max 1 ((items.length + n - 1) / n) ∧
      (∀ ahead, Walk (fun after => fetch o s nodeOf items ⟨some n, none, after, none⟩) none ahead →
        pages.reverse.flatMap (·.edges) = ahead.flatMap (·.edges)) ∧
      (items.length < 9223372036854775808 →
        ∃ ahead, Walk (fun after => fetch o s nodeOf items ⟨some n, none, after, none⟩) none ahead) ∧
      ∀ (j : Nat) (page : Connection ν), pages[j]? = some page →
        page.pageInfo.hasNext = decide (0 < j) ∧
        page.pageInfo.hasPrevious = decide (j + 1 < pages.length) := by
  have length := (o.sort_perm items).length_eq
  have count : 1 ≤ pageCount items.length n := Nat.le_max_left 1 _
  obtain ⟨k, hk⟩ : ∃ k, pageCount items.length n = k + 1 := ⟨_, (Nat.sub_add_cancel count).symm⟩
  have enough : items.length ≤ (k + 1) * n := hk ▸ le_pageCount_mul items.length pos
  have retreat : Retreat (fun before => fetch o s nodeOf items ⟨none, some n, none, before⟩) none
      ((List.range (k + 1)).map fun j => pageUpTo o nodeOf (o.sort items) n
        ((o.sort items).length - j * n)) := by
    refine retreat_pages o nodeOf pos allowed (by omega) distinct k (Nat.le_refl _)
      (fetch_end o nodeOf allowed (by omega)) (fun j hj => ?_) (length ▸ enough)
    rw [length]
    apply (lt_pageCount_iff items.length pos j).mp
    omega
  refine ⟨_, retreat, fun pages' retreat' => retreat.unique retreat', ?_, fun ahead walk => ?_,
    fun fits => exists_walk o nodeOf pos allowed distinct (by omega), fun j page hj => ?_⟩
  · rw [List.length_map, List.length_range, ← hk]
    rfl
  · have first : ∃ stop, stop ≤ (o.sort items).length ∧
        fetch o s nodeOf items ⟨some n, none, none, none⟩ =
          .ok (Connection.ofPage o nodeOf (Page.cut (o.sort items) 0 stop)) :=
      ⟨_, Nat.min_le_left _ _, fetch_first o nodeOf allowed (by omega)⟩
    rw [walk.delivers o nodeOf allowed distinct first, flatMap_pages_back o nodeOf (length ▸ enough)]
    rfl
  · obtain ⟨inside, here⟩ := List.getElem?_eq_some_iff.mp hj
    simp only [List.length_map, List.length_range] at inside ⊢
    simp only [List.getElem_map, List.getElem_range] at here
    subst here
    constructor
    · exact decide_eq_decide.mpr (behind_iff pos (by rwa [length, hk]))
    · rw [pageUpTo_hasPrevious, length, ← hk, decide_eq_decide, lt_pageCount_iff items.length pos,
        Nat.succ_mul]
      omega

theorem backward_walk_roles :
    ∃ pages ahead : List (Connection String),
      Retreat (fun before => fetch (Listed.standard : Order Role) .standard (·.name) threeRoles
        ⟨none, some 2, none, before⟩) none pages ∧
      pages.length = 2 ∧
      Walk (fun after => fetch (Listed.standard : Order Role) .standard (·.name) threeRoles
        ⟨some 2, none, after, none⟩) none ahead ∧
      pages.reverse.flatMap (·.edges) = ahead.flatMap (·.edges) := by
  obtain ⟨pages, retreat, _, count, same, forward, _⟩ :=
    backward_walk (Listed.standard : Order Role) (·.name) .standard threeRoles 2 (by decide) (by decide)
      (by decide) (by decide)
  obtain ⟨ahead, walk⟩ := forward (by decide)
  exact ⟨pages, ahead, retreat, count, walk, same ahead walk⟩

end Backward

end InfraGraph

import InfraGraph.Proofs.Listing.Traversal

/-!
Going through a listing while it changes. Every page is fetched from the list as it is then, so positions
mean nothing from one page to the next; what lasts is the order. A page after a cursor shows entities that
come after the cursor's in the order, from the first of them on, and so the pages together only ever go
forward and leave out nothing that was there all the time.
-/

namespace InfraGraph

variable {α ν : Type}

/-- Pages asked for one after another, each from the list as it is then and after the end of the page
before. -/
inductive Tour (ask : List α → Option String → Except Fault (Connection ν)) :
    Option String → List (List α) → List (Connection ν) → Prop
  | last {after : Option String} {items : List α} {page : Connection ν}
      (answer : ask items after = .ok page) : Tour ask after [items] [page]
  | more {after : Option String} {items : List α} {snapshots : List (List α)} {page : Connection ν}
      {pages : List (Connection ν)} {cursor : String} (answer : ask items after = .ok page)
      (ends : page.pageInfo.endCursor = some cursor) (rest : Tour ask (some cursor) snapshots pages) :
      Tour ask after (items :: snapshots) (page :: pages)

theorem Tour.pages_ne_nil {ask : List α → Option String → Except Fault (Connection ν)}
    {after : Option String} {snapshots : List (List α)} {pages : List (Connection ν)}
    (tour : Tour ask after snapshots pages) : pages ≠ [] := by
  cases tour <;> simp

section Order

variable [Listed α]

namespace Order

theorem compare_congr (o : Order α) {a a' : α} (id : Listed.id a = Listed.id a')
    (text : o.key.text a = o.key.text a') (b : α) : o.compare a b = o.compare a' b := by
  simp only [compare, id, text]

theorem compare_congr_right (o : Order α) {a a' : α} (id : Listed.id a = Listed.id a')
    (text : o.key.text a = o.key.text a') (b : α) : o.compare b a = o.compare b a' := by
  simp only [compare, id, text]

theorem compare_self (o : Order α) (a : α) : o.compare a a = .eq :=
  Std.ReflCmp.compare_self

theorem compare_trans (o : Order α) {a b c : α} (ab : o.compare a b = .lt) (bc : o.compare b c = .lt) :
    o.compare a c = .lt :=
  Std.TransCmp.lt_trans ab bc

theorem compare_ne_lt_of_same (o : Order α) {a b : α} (id : Listed.id a = Listed.id b)
    (text : o.key.text a = o.key.text b) : o.compare a b ≠ .lt := by
  rw [o.compare_congr id text, o.compare_self]
  decide

end Order

/-- Entities of one identifier have one text to sort by, in whatever snapshot they stand. -/
def Steady (o : Order α) (items : List α) : Prop :=
  ∀ a ∈ items, ∀ b ∈ items, Listed.id a = Listed.id b → o.key.text a = o.key.text b

/-- What a page shows of a list: a part that begins with the first of those that lie beyond some place, and
what lies beyond the part only if there is a next page. -/
structure Shows (o : Order α) (nodeOf : α → ν) (items : List α) (beyond : α → Prop)
    (page : Connection ν) (part : List α) : Prop where
  edges : page.edges = part.map fun a => ⟨(Cursor.ofItem o a).encode, nodeOf a⟩
  strict : part.Pairwise fun a b => o.compare a b = .lt
  within : ∀ b ∈ part, b ∈ items ∧ beyond b
  rest : ∀ c ∈ items, beyond c →
    c ∈ part ∨ page.pageInfo.hasNext = true ∧ ∀ b ∈ part, o.compare b c = .lt

theorem Shows.last {o : Order α} {nodeOf : α → ν} {items : List α} {beyond : α → Prop}
    {p : Page α} {part : List α} (shows : Shows o nodeOf items beyond (Connection.ofPage o nodeOf p) part)
    {cursor : String} (ends : (Connection.ofPage o nodeOf p).pageInfo.endCursor = some cursor) :
    ∃ a, part.getLast? = some a ∧ cursor = (Cursor.ofItem o a).encode := by
  have edges : (Connection.ofPage o nodeOf p).pageInfo.endCursor =
      (Connection.ofPage o nodeOf p).edges.getLast?.map Edge.cursor := rfl
  rw [edges, shows.edges, List.getLast?_map, Option.map_map] at ends
  obtain ⟨a, ha, rfl⟩ := Option.map_eq_some_iff.mp ends
  exact ⟨a, ha, rfl⟩

theorem shows_cut {o : Order α} {nodeOf : α → ν} {items : List α}
    (distinct : (items.map Listed.id).Nodup) {beyond : α → Prop} {start stop : Nat}
    (inside : stop ≤ (o.sort items).length)
    (split : ∀ c ∈ o.sort items, beyond c ↔ c ∈ (o.sort items).drop start) :
    Shows o nodeOf items beyond (Connection.ofPage o nodeOf (Page.cut (o.sort items) start stop))
      (((o.sort items).drop start).take (stop - start)) where
  edges := rfl
  strict := ((Order.sort_strict distinct o).sublist (List.drop_sublist start _)).sublist
    (List.take_sublist _ _)
  within b hb := by
    have tail := List.mem_of_mem_take hb
    have mem := List.mem_of_mem_drop tail
    exact ⟨(o.sort_perm items).mem_iff.mp mem, (split b mem).mpr tail⟩
  rest c hc far := by
    have tail := (split c ((o.sort_perm items).mem_iff.mpr hc)).mp far
    have strict := (Order.sort_strict distinct o).sublist (List.drop_sublist start _)
    rw [← List.take_append_drop (stop - start) ((o.sort items).drop start)] at tail strict
    rcases List.mem_append.mp tail with shown | later
    · exact .inl shown
    · refine .inr ⟨?_, fun b hb => (List.pairwise_append.mp strict).2.2 b hb c later⟩
      have nonempty := List.length_pos_of_mem later
      simp only [List.length_drop] at nonempty
      exact decide_eq_true (by omega : stop < (o.sort items).length)

variable {s : PageSettings} {n : Nat}

theorem fetch_first_shows (o : Order α) (nodeOf : α → ν) (allowed : n ≤ s.maxSize) (items : List α) :
    ∃ p : Page α, fetch o s nodeOf items ⟨some n, none, none, none⟩ = .ok (Connection.ofPage o nodeOf p) ∧
      ((items.map Listed.id).Nodup → ∃ part, Shows o nodeOf items (fun _ => True)
        (Connection.ofPage o nodeOf p) part) := by
  have unread : PageRequest.readCursor o none = .ok none := rfl
  have window := PageRequest.window_forward allowed unread
  refine ⟨Page.cut (o.sort items) 0 (min (o.sort items).length (Page.word64 n)), ?_, fun distinct => ?_⟩
  · simp only [fetch, window, Page.ofList, Page.ofSorted]
    rfl
  · exact ⟨_, shows_cut distinct (Nat.min_le_left _ _) (by simp)⟩

theorem fetch_after_error (o : Order α) (nodeOf : α → ν) (allowed : n ≤ s.maxSize) (items : List α)
    (a : α) (f : Fault) :
    fetch o s nodeOf items ⟨some n, none, some (Cursor.ofItem o a).encode, none⟩ = .error f ↔
      f = .invalidInput "cursor does not match any item" ∧ ∀ b ∈ items, Listed.id b ≠ Listed.id a := by
  have window := PageRequest.window_forward allowed (PageRequest.readCursor_ofItem o a)
  have refused : fetch o s nodeOf items ⟨some n, none, some (Cursor.ofItem o a).encode, none⟩ = .error f ↔
      Page.ofList o (.forward n (some (Cursor.ofItem o a))) items = .error f := by
    simp only [fetch, window]
    cases Page.ofList o (.forward n (some (Cursor.ofItem o a))) items <;> simp [Except.map]
  rw [refused, Page.ofList, Page.ofSorted_eq_error_iff]
  simp only [Window.cursor?, Option.some.injEq, exists_eq_left', (o.sort_perm items).mem_iff]
  rfl

theorem fetch_after_shows (o : Order α) (nodeOf : α → ν) (allowed : n ≤ s.maxSize) {items : List α}
    (distinct : (items.map Listed.id).Nodup) {a : α}
    (steady : ∀ b ∈ items, Listed.id b = Listed.id a → o.key.text b = o.key.text a)
    {page : Connection ν}
    (answer : fetch o s nodeOf items ⟨some n, none, some (Cursor.ofItem o a).encode, none⟩ = .ok page) :
    ∃ (p : Page α) (part : List α), page = Connection.ofPage o nodeOf p ∧
      Shows o nodeOf items (fun c => o.compare a c = .lt) page part := by
  have window := PageRequest.window_forward allowed (PageRequest.readCursor_ofItem o a)
  simp only [fetch, window, Page.ofList, Page.ofSorted, Page.position] at answer
  cases found : (o.sort items).findIdx? (Listed.id · = (Cursor.ofItem o a).id) with
  | none => rw [found] at answer; cases answer
  | some i =>
    rw [found] at answer
    obtain rfl := Except.ok.inj answer
    refine ⟨_, _, rfl, shows_cut distinct (Nat.min_le_left _ _) fun c hc => ?_⟩
    obtain ⟨inside, same, -⟩ := List.findIdx?_eq_some_iff_getElem.mp found
    have sameId : Listed.id (o.sort items)[i] = Listed.id a := of_decide_eq_true same
    have sameText := steady _ ((o.sort_perm items).mem_iff.mp (List.getElem_mem inside)) sameId
    have parts : o.sort items =
        (o.sort items).take i ++ (o.sort items)[i] :: (o.sort items).drop (i + 1) := by
      rw [← List.drop_eq_getElem_cons inside, List.take_append_drop]
    have strict := Order.sort_strict distinct o
    rw [← o.compare_congr sameId sameText]
    generalize (o.sort items)[i] = b at parts
    rw [parts] at hc strict
    obtain ⟨-, behind, before⟩ := List.pairwise_append.mp strict
    constructor
    · intro lt
      rcases List.mem_append.mp hc with ahead | here
      · have back := o.compare_trans lt (before c ahead b List.mem_cons_self)
        rw [o.compare_self] at back
        cases back
      · rcases List.mem_cons.mp here with rfl | later
        · rw [o.compare_self] at lt
          cases lt
        · exact later
    · exact fun later => (List.pairwise_cons.mp behind).1 c later

/-- What a tour of changing lists delivers, when its first page shows what lies beyond some place. -/
structure Delivers (o : Order α) (nodeOf : α → ν) (snapshots : List (List α)) (beyond : α → Prop)
    (pages : List (Connection ν)) (delivered : List α) : Prop where
  edges : pages.flatMap (·.edges) = delivered.map fun a => ⟨(Cursor.ofItem o a).encode, nodeOf a⟩
  strict : delivered.Pairwise fun a b => o.compare a b = .lt
  within : ∀ b ∈ delivered, b ∈ snapshots.flatten ∧ beyond b
  complete : ∀ page, pages.getLast? = some page → page.pageInfo.hasNext = false →
    ∀ id, (∀ items ∈ snapshots, ∃ a ∈ items, Listed.id a = id ∧ beyond a) →
      ∃ a ∈ delivered, Listed.id a = id
  last : ∀ page, pages.getLast? = some page → ∀ cursor, page.pageInfo.endCursor = some cursor →
    ∃ a, delivered.getLast? = some a ∧ cursor = (Cursor.ofItem o a).encode

theorem delivers_one {o : Order α} {nodeOf : α → ν} {items : List α} {beyond : α → Prop} {p : Page α}
    {part : List α} (shows : Shows o nodeOf items beyond (Connection.ofPage o nodeOf p) part) :
    Delivers o nodeOf [items] beyond [Connection.ofPage o nodeOf p] part where
  edges := by simpa using shows.edges
  strict := shows.strict
  within b hb := by simpa using shows.within b hb
  complete page only done id there := by
    obtain rfl : Connection.ofPage o nodeOf p = page := by simpa using only
    obtain ⟨a, mem, same, far⟩ := there items (by simp)
    rcases shows.rest a mem far with shown | ⟨next, -⟩
    · exact ⟨a, shown, same⟩
    · simp [done] at next
  last page only cursor ends := by
    obtain rfl : Connection.ofPage o nodeOf p = page := by simpa using only
    exact shows.last ends

theorem delivers_more {o : Order α} {nodeOf : α → ν} {items : List α} {snapshots : List (List α)}
    (steady : Steady o (items ++ snapshots.flatten)) {beyond : α → Prop}
    (upward : ∀ a b, beyond a → o.compare a b = .lt → beyond b) {page : Connection ν} {part : List α}
    (shows : Shows o nodeOf items beyond page part) {a : α} (last : part.getLast? = some a)
    {pages : List (Connection ν)} (more : pages ≠ []) {delivered : List α}
    (rest : Delivers o nodeOf snapshots (fun c => o.compare a c = .lt) pages delivered) :
    Delivers o nodeOf (items :: snapshots) beyond (page :: pages) (part ++ delivered) := by
  have ends := List.mem_of_getLast? last
  have final : (page :: pages).getLast? = pages.getLast? := List.getLast?_cons_of_ne_nil more
  -- the last entity of a part is the greatest of it
  have greatest : ∀ b ∈ part, b = a ∨ o.compare b a = .lt := by
    obtain ⟨front, rfl⟩ := List.getLast?_eq_some_iff.mp last
    intro b hb
    rcases List.mem_append.mp hb with earlier | same
    · exact .inr ((List.pairwise_append.mp shows.strict).2.2 b earlier a (by simp))
    · exact .inl (List.mem_singleton.mp same)
  refine ⟨?_, ?_, ?_, ?_, ?_⟩
  · rw [List.flatMap_cons, shows.edges, rest.edges, List.map_append]
  · refine List.pairwise_append.mpr ⟨shows.strict, rest.strict, fun b hb c hc => ?_⟩
    rcases greatest b hb with rfl | below
    · exact (rest.within c hc).2
    · exact o.compare_trans below (rest.within c hc).2
  · intro b hb
    rw [List.flatten_cons, List.mem_append]
    rcases List.mem_append.mp hb with here | later
    · exact ⟨.inl (shows.within b here).1, (shows.within b here).2⟩
    · exact ⟨.inr (rest.within b later).1, upward a b (shows.within a ends).2 (rest.within b later).2⟩
  · intro p hp done id there
    obtain ⟨c, hc, same, far⟩ := there items (by simp)
    rcases shows.rest c hc far with shown | ⟨-, behind⟩
    · exact ⟨c, List.mem_append_left _ shown, same⟩
    · obtain ⟨d, hd, found⟩ := rest.complete p (final ▸ hp) done id fun items' mem => by
        obtain ⟨c', hc', same', -⟩ := there items' (List.mem_cons_of_mem _ mem)
        have one := same'.trans same.symm
        have text := steady c' (List.mem_append_right _ (List.mem_flatten_of_mem mem hc')) c
          (List.mem_append_left _ hc) one
        refine ⟨c', hc', same', ?_⟩
        rw [o.compare_congr_right one text]
        exact behind a ends
      exact ⟨d, List.mem_append_right _ hd, found⟩
  · intro p hp cursor cut
    obtain ⟨b, hb, rfl⟩ := rest.last p (final ▸ hp) cursor cut
    exact ⟨b, by rw [List.getLast?_append, hb]; rfl, rfl⟩

theorem Tour.delivers (o : Order α) (nodeOf : α → ν) (allowed : n ≤ s.maxSize) {after : Option String}
    {snapshots : List (List α)} {pages : List (Connection ν)}
    (tour : Tour (fun items after => fetch o s nodeOf items ⟨some n, none, after, none⟩) after snapshots
      pages) (distinct : ∀ items ∈ snapshots, (items.map Listed.id).Nodup)
    (steady : Steady o snapshots.flatten) {beyond : α → Prop}
    (upward : ∀ a b, beyond a → o.compare a b = .lt → beyond b)
    (place : ∀ items ∈ snapshots, ∀ page, fetch o s nodeOf items ⟨some n, none, after, none⟩ = .ok page →
      ∃ (p : Page α) (part : List α), page = Connection.ofPage o nodeOf p ∧
        Shows o nodeOf items beyond page part) :
    ∃ delivered, Delivers o nodeOf snapshots beyond pages delivered := by
  induction tour generalizing beyond with
  | last answer =>
    obtain ⟨p, part, rfl, shows⟩ := place _ List.mem_cons_self _ answer
    exact ⟨part, delivers_one shows⟩
  | more answer ends rest ih =>
    obtain ⟨p, part, rfl, shows⟩ := place _ List.mem_cons_self _ answer
    obtain ⟨a, last, rfl⟩ := shows.last ends
    have here := (shows.within a (List.mem_of_getLast? last)).1
    rw [List.flatten_cons] at steady
    have later : Steady o _ := fun b hb c hc =>
      steady b (List.mem_append_right _ hb) c (List.mem_append_right _ hc)
    obtain ⟨delivered, delivers⟩ := ih (fun items mem => distinct items (List.mem_cons_of_mem _ mem)) later
      (fun _ _ => o.compare_trans) fun items mem page answer =>
        fetch_after_shows o nodeOf allowed (distinct items (List.mem_cons_of_mem _ mem))
          (fun b hb => steady b (List.mem_append_right _ (List.mem_flatten_of_mem mem hb)) a
            (List.mem_append_left _ here)) answer
    exact ⟨part ++ delivered, delivers_more steady upward shows last rest.pages_ne_nil delivers⟩

/-- Following the cursors while the list changes between the pages, with each entity keeping its place in
the order. The pages together go strictly forward in the order, so nothing is delivered twice; when a page
has none behind it, all that was there in every snapshot has been delivered. The first fetch never fails,
and one after a cursor fails if and only if the last entity delivered is gone, and then as bad input. -/
theorem snapshot_walk (o : Order α) (nodeOf : α → ν) (s : PageSettings) (n : Nat)
    (allowed : n ≤ s.maxSize) (snapshots : List (List α))
    (distinct : ∀ items ∈ snapshots, (items.map Listed.id).Nodup)
    (steady : ∀ a ∈ snapshots.flatten, ∀ b ∈ snapshots.flatten,
      Listed.id a = Listed.id b → o.key.text a = o.key.text b) :
    (∀ pages, Tour (fun items after => fetch o s nodeOf items ⟨some n, none, after, none⟩) none snapshots
        pages →
      ∃ delivered : List α,
        pages.flatMap (·.edges) = delivered.map (fun a => ⟨(Cursor.ofItem o a).encode, nodeOf a⟩) ∧
        delivered.Pairwise (fun a b => o.compare a b = .lt) ∧ (delivered.map Listed.id).Nodup ∧
        (∀ page, pages.getLast? = some page → page.pageInfo.hasNext = false →
          ∀ id, (∀ items ∈ snapshots, ∃ a ∈ items, Listed.id a = id) → ∃ a ∈ delivered, Listed.id a = id) ∧
        ∀ page cursor, pages.getLast? = some page → page.pageInfo.endCursor = some cursor →
          ∃ a, delivered.getLast? = some a ∧ ∀ (now : List α) (f : Fault),
            fetch o s nodeOf now ⟨some n, none, some cursor, none⟩ = .error f ↔
              f = .invalidInput "cursor does not match any item" ∧
                ∀ b ∈ now, Listed.id b ≠ Listed.id a) ∧
    ∀ now : List α, ∃ page, fetch o s nodeOf now ⟨some n, none, none, none⟩ = .ok page := by
  refine ⟨fun pages tour => ?_, fun now => ?_⟩
  · obtain ⟨delivered, d⟩ : ∃ delivered, Delivers o nodeOf snapshots (fun _ => True) pages delivered := by
      refine tour.delivers o nodeOf allowed distinct steady (fun _ _ _ _ => trivial)
        fun items mem page answer => ?_
      obtain ⟨p, first, part⟩ := fetch_first_shows o nodeOf allowed items
      obtain rfl := Except.ok.inj (first.symm.trans answer)
      obtain ⟨part, shows⟩ := part (distinct items mem)
      exact ⟨p, part, rfl, shows⟩
    refine ⟨delivered, d.edges, d.strict, ?_, fun page last done id there => ?_,
      fun page cursor last ends => ?_⟩
    · refine List.pairwise_map.mpr (d.strict.imp_of_mem fun {a b} ha hb lt same => ?_)
      have text := steady a (d.within a ha).1 b (d.within b hb).1 same
      exact o.compare_ne_lt_of_same same text lt
    · exact d.complete page last done id fun items mem => by simpa using there items mem
    · obtain ⟨a, ha, rfl⟩ := d.last page last cursor ends
      exact ⟨a, ha, fun now f => fetch_after_error o nodeOf allowed now a f⟩
  · obtain ⟨p, first, -⟩ := fetch_first_shows o nodeOf allowed now
    exact ⟨_, first⟩

end Order

def roleNamed (name : String) : Role :=
  ⟨name, name, "", [], "", .fresh⟩

/-- Between the pages one role comes in ahead of all that was read, and the first that was read goes. -/
theorem snapshot_walk_roles :
    ∃ pages : List (Connection String),
      Tour (fun items after => fetch (Listed.standard : Order Role) .standard (·.name) items
          ⟨some 2, none, after, none⟩) none
        [["b", "d", "f"].map roleNamed, ["a", "d", "f"].map roleNamed] pages ∧
      ∃ delivered : List Role,
        delivered.Pairwise (fun a b => (Listed.standard : Order Role).compare a b = .lt) ∧
        ∃ a ∈ delivered, Listed.id a = "f" := by
  have sort₁ : (Listed.standard : Order Role).sort (["b", "d", "f"].map roleNamed) =
      ["b", "d", "f"].map roleNamed := List.mergeSort_of_pairwise (by decide)
  have sort₂ : (Listed.standard : Order Role).sort (["a", "d", "f"].map roleNamed) =
      ["a", "d", "f"].map roleNamed := List.mergeSort_of_pairwise (by decide)
  have inside : 1 < ((Listed.standard : Order Role).sort (["a", "d", "f"].map roleNamed)).length := by
    rw [sort₂]
    decide
  have first : fetch (Listed.standard : Order Role) .standard (·.name) (["b", "d", "f"].map roleNamed)
      ⟨some (2 : Nat), none, none, none⟩ = _ := fetch_first _ _ (by decide) (by decide)
  have second := fetch_after (Listed.standard : Order Role) (·.name)
    (by decide : ((2 : Nat) : Int) ≤ PageSettings.standard.maxSize)
    (by decide : ((["a", "d", "f"].map roleNamed).map Listed.id).Nodup) (by decide) inside
  have ends := pageAt_endCursor (Listed.standard : Order Role) (·.name)
    (by decide : 0 + 2 = 1 + 1) (by decide)
    (by decide : 1 < (["b", "d", "f"].map roleNamed).length)
  simp only [sort₁] at first
  simp only [sort₂, List.getElem_map] at second
  simp only [List.getElem_map] at ends
  have tour : Tour (fun items after => fetch (Listed.standard : Order Role) .standard (·.name) items
      ⟨some (2 : Nat), none, after, none⟩) none
      [["b", "d", "f"].map roleNamed, ["a", "d", "f"].map roleNamed] [_, _] :=
    .more first ends (.last second)
  obtain ⟨delivered, -, strict, -, complete, -⟩ := (snapshot_walk (Listed.standard : Order Role) (·.name)
    .standard 2 (by decide) [["b", "d", "f"].map roleNamed, ["a", "d", "f"].map roleNamed] (by decide)
    (by decide)).1 _ tour
  exact ⟨_, tour, delivered, strict, complete _ rfl rfl "f" (by decide)⟩

end InfraGraph

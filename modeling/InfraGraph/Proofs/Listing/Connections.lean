import InfraGraph.Listing.Connection
import InfraGraph.Proofs.Listing.Windows
import Mathlib.Data.List.Forall2

/-!
How the connection of a page is made. A node is made of an item only when the item has a cursor, and the first
item that has none ends the work; so the node function is called on the items before that one, in order, and
on nothing else. The node function may have effects: the equations below hold in every lawful monad, and the
main result reads them off for a function that keeps a state from call to call.
-/

namespace InfraGraph

namespace Connection

variable {m : Type → Type} [Monad m] {α ν ε σ : Type} {cursorOf : α → Except ε String} {nodeOf : α → m ν}

def Cursors (cursorOf : α → Except ε String) (items : List α) (texts : List String) : Prop :=
  List.Forall₂ (fun a text => cursorOf a = .ok text) items texts

theorem Cursors.made {items : List α} {texts : List String} (fine : Cursors cursorOf items texts) {a : α}
    (mem : a ∈ items) : ∃ text, cursorOf a = .ok text := by
  induction fine with
  | nil => cases mem
  | cons made _ ih =>
    rcases List.mem_cons.mp mem with rfl | mem
    · exact ⟨_, made⟩
    · exact ih mem

theorem cursors_cases (cursorOf : α → Except ε String) (items : List α) :
    (∃ texts, Cursors cursorOf items texts) ∨
      ∃ before a after texts e, items = before ++ a :: after ∧ Cursors cursorOf before texts ∧
        cursorOf a = .error e := by
  induction items with
  | nil => exact .inl ⟨[], .nil⟩
  | cons a items ih =>
    cases made : cursorOf a with
    | error e => exact .inr ⟨[], a, items, [], e, rfl, .nil, made⟩
    | ok text =>
      rcases ih with ⟨texts, fine⟩ | ⟨before, b, after, texts, e, rfl, fine, failed⟩
      · exact .inl ⟨text :: texts, .cons made fine⟩
      · exact .inr ⟨a :: before, b, after, text :: texts, e, rfl, .cons made fine, failed⟩

theorem edgesOf_cons_ok {a : α} {text : String} (made : cursorOf a = .ok text) (rest : List α) :
    edgesOf cursorOf nodeOf (a :: rest) = (do
      let node ← nodeOf a
      let edges ← edgesOf cursorOf nodeOf rest
      return edges.map (⟨text, node⟩ :: ·)) := by
  rw [edgesOf, made]

theorem edgesOf_cons_error {a : α} {e : ε} (failed : cursorOf a = .error e) (rest : List α) :
    edgesOf cursorOf nodeOf (a :: rest) = pure (.error e) := by
  rw [edgesOf, failed]

section Lawful

variable [LawfulMonad m]

theorem edgesOf_append {before : List α} {texts : List String} (fine : Cursors cursorOf before texts)
    (after : List α) :
    edgesOf cursorOf nodeOf (before ++ after) = (do
      let nodes ← before.mapM nodeOf
      let edges ← edgesOf cursorOf nodeOf after
      return edges.map (List.zipWith Edge.mk texts nodes ++ ·)) := by
  induction fine with
  | nil =>
    have same : ∀ edges : Except ε (List (Edge ν)), edges.map (fun more => more) = edges := by
      rintro (e | edges) <;> rfl
    simp [same]
  | cons made _ ih =>
    -- both sides make the node of the first item, then those of the others, and go on with the rest
    simp only [List.cons_append, edgesOf_cons_ok made, ih, List.mapM_cons, bind_assoc, pure_bind]
    refine bind_congr fun node => bind_congr fun nodes => bind_congr fun edges => ?_
    cases edges <;> rfl

theorem edgesOf_all {items : List α} {texts : List String} (fine : Cursors cursorOf items texts) :
    edgesOf cursorOf nodeOf items = (do
      let nodes ← items.mapM nodeOf
      return .ok (List.zipWith Edge.mk texts nodes)) := by
  rw [← List.append_nil items, edgesOf_append fine, List.append_nil]
  simp [edgesOf, Except.map]

theorem edgesOf_until {before : List α} {texts : List String} (fine : Cursors cursorOf before texts)
    {a : α} {e : ε} (failed : cursorOf a = .error e) (after : List α) :
    edgesOf cursorOf nodeOf (before ++ a :: after) = (do
      let _ ← before.mapM nodeOf
      return .error e) := by
  rw [edgesOf_append fine, edgesOf_cons_error failed]
  simp [Except.map]

theorem fromPage_all {p : Page α} {texts : List String} (fine : Cursors cursorOf p.items texts) :
    fromPage cursorOf nodeOf p = (do
      let nodes ← p.items.mapM nodeOf
      return .ok (ofEdges p.hasNext p.hasPrevious p.total (List.zipWith Edge.mk texts nodes))) := by
  rw [fromPage, edgesOf_all fine]
  simp [Except.map]

theorem fromPage_until {p : Page α} {before after : List α} {a : α} {texts : List String} {e : ε}
    (split : p.items = before ++ a :: after) (fine : Cursors cursorOf before texts)
    (failed : cursorOf a = .error e) :
    fromPage cursorOf nodeOf p = (do
      let _ ← before.mapM nodeOf
      return .error e) := by
  rw [fromPage, split, edgesOf_until fine failed]
  simp [Except.map]

end Lawful

/-- What a connection has of a page whose items were made into the given nodes: an edge for each item, of the
cursor and the node of that item, and all else from the ends of the edges or from the page as it is. -/
structure Connects (cursorOf : α → Except ε String) (p : Page α) (nodes : List ν)
    (c : Connection ν) : Prop where
  length : c.edges.length = p.items.length
  edge : ∀ (i : Nat) (a : α), p.items[i]? = some a → ∃ e, c.edges[i]? = some e ∧
    cursorOf a = .ok e.cursor ∧ nodes[i]? = some e.node
  start : c.pageInfo.startCursor = c.edges.head?.map (·.cursor)
  stop : c.pageInfo.endCursor = c.edges.getLast?.map (·.cursor)
  start_absent : c.pageInfo.startCursor = none ↔ p.items = []
  stop_absent : c.pageInfo.endCursor = none ↔ p.items = []
  next : c.pageInfo.hasNext = p.hasNext
  previous : c.pageInfo.hasPrevious = p.hasPrevious
  total : c.total = p.total

theorem connects_ofEdges {p : Page α} {texts : List String} {nodes : List ν}
    (fine : Cursors cursorOf p.items texts) (each : nodes.length = p.items.length) :
    Connects cursorOf p nodes
      (ofEdges p.hasNext p.hasPrevious p.total (List.zipWith Edge.mk texts nodes)) := by
  have length : (List.zipWith Edge.mk texts nodes).length = p.items.length := by
    rw [List.length_zipWith, ← fine.length_eq, each, Nat.min_self]
  have bare : List.zipWith Edge.mk texts nodes = [] ↔ p.items = [] := by
    rw [← List.length_eq_zero_iff, length, List.length_eq_zero_iff]
  refine ⟨length, fun i a here => ?_, rfl, rfl, ?_, ?_, rfl, rfl, rfl⟩
  · obtain ⟨inside, rfl⟩ := List.getElem?_eq_some_iff.mp here
    have written : i < texts.length := fine.length_eq ▸ inside
    have made : i < nodes.length := each ▸ inside
    have edge : (List.zipWith Edge.mk texts nodes)[i]? = some ⟨texts[i], nodes[i]⟩ := by
      rw [List.getElem?_zipWith, List.getElem?_eq_getElem written, List.getElem?_eq_getElem made]
    exact ⟨_, edge, fine.get inside written, List.getElem?_eq_getElem made⟩
  · simp [ofEdges, bare]
  · simp [ofEdges, bare]

theorem length_mapM_run (nodeOf : α → StateM σ ν) (items : List α) (s : σ) :
    ((items.mapM nodeOf).run s).1.length = items.length := by
  induction items generalizing s with
  | nil => rfl
  | cons a items ih =>
    rw [List.mapM_cons]
    exact congrArg (· + 1) (ih ((nodeOf a).run s).2)

/-- Making the connection of a page with a node function that has a state. If every item has a cursor, the
function is called on all items in order and each item becomes an edge; the flags and the total are those of the
page, whatever its items. Else what comes of it is the error of the first item without a cursor, with the state
as calls on the items before that one leave it, in order. -/
theorem page_zips_or_stops (cursorOf : α → Except ε String) (nodeOf : α → StateM σ ν) (p : Page α) (s : σ) :
    ((∀ a ∈ p.items, ∃ text, cursorOf a = .ok text) →
      ∃ nodes s' c, (p.items.mapM nodeOf).run s = (nodes, s') ∧
        (fromPage cursorOf nodeOf p).run s = (.ok c, s') ∧ Connects cursorOf p nodes c) ∧
    ((∃ a ∈ p.items, ∃ e, cursorOf a = .error e) →
      ∃ before a after e, p.items = before ++ a :: after ∧
        (∀ b ∈ before, ∃ text, cursorOf b = .ok text) ∧ cursorOf a = .error e ∧
        (fromPage cursorOf nodeOf p).run s = (.error e, ((before.mapM nodeOf).run s).2)) := by
  rcases cursors_cases cursorOf p.items with ⟨texts, fine⟩ | ⟨before, a, after, texts, e, split, fine, failed⟩
  · refine ⟨fun _ => ?_, ?_⟩
    · rw [fromPage_all fine]
      exact ⟨_, _, _, rfl, rfl, connects_ofEdges fine (length_mapM_run nodeOf p.items s)⟩
    · rintro ⟨a, mem, e, failed⟩
      obtain ⟨text, made⟩ := fine.made mem
      cases made.symm.trans failed
  · refine ⟨fun all => ?_, fun _ => ⟨before, a, after, e, split, fun b mem => fine.made mem, failed, ?_⟩⟩
    · obtain ⟨text, made⟩ := all a (by simp [split])
      cases made.symm.trans failed
    · rw [fromPage_until split fine failed]
      rfl

def oddCursor (n : Nat) : Except Nat String :=
  if n % 2 = 1 then .ok n.repr else .error n

def countCalls (n : Nat) : StateM (List Nat) Nat := do
  let calls ← get
  set (calls ++ [n])
  return calls.length

theorem page_zips_or_stops_odd :
    (∃ c e, (fromPage oddCursor countCalls ⟨[5, 3], true, true, 0⟩).run [] = (.ok c, [5, 3]) ∧
      c.edges.length = 2 ∧ c.edges[1]? = some e ∧ e.cursor = "3" ∧ e.node = 1 ∧
      c.pageInfo.hasNext = true ∧ c.total = 0) ∧
    (fromPage oddCursor countCalls ⟨[5, 2, 3, 4], true, true, 0⟩).run [] = (.error 2, [5]) := by
  obtain ⟨zips, -⟩ := page_zips_or_stops oddCursor countCalls ⟨[5, 3], true, true, 0⟩ []
  obtain ⟨-, stops⟩ := page_zips_or_stops oddCursor countCalls ⟨[5, 2, 3, 4], true, true, 0⟩ []
  constructor
  · have odd : ∀ n ∈ [5, 3], ∃ text, oddCursor n = .ok text := by simp [oddCursor]
    obtain ⟨nodes, calls, c, called, run, connects⟩ := zips odd
    obtain ⟨rfl, rfl⟩ : [0, 1] = nodes ∧ [5, 3] = calls := Prod.mk.inj called
    obtain ⟨e, edge, cursor, node⟩ := connects.edge 1 3 rfl
    exact ⟨c, e, run, connects.length, edge, (Except.ok.inj cursor).symm, (Option.some.inj node).symm,
      connects.next, connects.total⟩
  · obtain ⟨before, n, after, e, split, fine, failed, run⟩ := stops ⟨2, by decide, 2, rfl⟩
    -- the front cannot stop at 5, which is odd, nor go past 2, which is not
    rcases before with _ | ⟨first, _ | ⟨second, before⟩⟩
    · obtain ⟨rfl, -⟩ := List.cons.inj split
      cases failed
    · obtain ⟨rfl, rest⟩ := List.cons.inj split
      obtain ⟨rfl, -⟩ := List.cons.inj rest
      cases failed
      exact run
    · obtain ⟨-, rest⟩ := List.cons.inj split
      obtain ⟨rfl, -⟩ := List.cons.inj rest
      obtain ⟨text, made⟩ := fine 2 (by simp)
      cases made

end Connection

end InfraGraph

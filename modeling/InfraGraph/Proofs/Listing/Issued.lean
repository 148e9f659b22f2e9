import InfraGraph.Proofs.Entity.Orders
import InfraGraph.Proofs.Listing.Connections
import InfraGraph.Proofs.Listing.Requests
import InfraGraph.Proofs.Listing.Traversal

/-!
Cursors that were handed out. Each edge of a connection has the cursor of its item, which a request may start
from in the order of the connection. The orders of a type differ in field or direction, so a request in any
other of them is refused.
-/

namespace InfraGraph

variable {α ν : Type}

theorem SortField.cursorName_injective {f f' : SortField} (h : f.cursorName = f'.cursorName) : f = f' := by
  cases f <;> cases f' <;> first | rfl | exact absurd h (by decide)

namespace Connection

theorem edgesOf_ok {ε : Type} (cursorOf : α → String) (nodeOf : α → ν) (items : List α) :
    edgesOf (fun a => (.ok (cursorOf a) : Except ε String)) (fun a => (pure (nodeOf a) : Id ν)) items =
      pure (.ok (items.map fun a => ⟨cursorOf a, nodeOf a⟩)) := by
  have fine : Cursors (fun a => (.ok (cursorOf a) : Except ε String)) items (items.map cursorOf) :=
    List.forall₂_map_right_iff.mpr (List.forall₂_same.mpr fun _ _ => rfl)
  rw [edgesOf_all fine, List.mapM_pure, pure_bind, List.zipWith_map, List.zipWith_self]

theorem fromPage_ofItem [Listed α] (o : Order α) (nodeOf : α → ν) (p : Page α) :
    fromPage (fun a => (.ok (Cursor.ofItem o a).encode : Except Rejection String))
      (fun a => (pure (nodeOf a) : Id ν)) p = pure (.ok (ofPage o nodeOf p)) := by
  rw [fromPage, edgesOf_ok]
  rfl

end Connection

namespace PageRequest

def following (cursor : String) : PageRequest :=
  ⟨none, none, some cursor, none⟩

def preceding (cursor : String) : PageRequest :=
  ⟨none, none, none, some cursor⟩

variable {o : Order α} {s : PageSettings} {text : String} {c : Cursor}

theorem window_following (read : readCursor o (some text) = .ok (some c)) :
    (following text).window o s = .ok (.forward s.defaultSize (some c)) := by
  have unread : readCursor o none = .ok none := rfl
  simp only [window, following, read, unread]
  rfl

theorem window_preceding (read : readCursor o (some text) = .ok (some c)) :
    (preceding text).window o s = .ok (.backward s.defaultSize (some c)) := by
  have unread : readCursor o none = .ok none := rfl
  simp only [window, preceding, read, unread]
  rfl

theorem window_useless {r : PageRequest} (coherent : ¬ r.Incoherent s) (gives : r.Gives text)
    (useless : Cursor.Unusable o text) : ∃ reason, r.window o s = .error (.invalidCursor reason) := by
  rcases r.window_cases o s with ⟨flaw, -⟩ | ⟨-, -, f, refused⟩ | ⟨-, usable, -⟩
  · exact absurd flaw coherent
  · exact ⟨_, refused⟩
  · exact absurd useless (usable text gives)

end PageRequest

theorem Cursor.unusable_ofItem [Listed α] {o o' : Order α}
    (other : ¬ (o.key.field = o'.key.field ∧ o.direction = o'.direction)) (a : α) :
    Unusable o' (ofItem o a).encode := by
  have decoded : decode (ofItem o a).encode = .ok (ofItem o a) := by
    rw [decode_encode]
    rfl
  refine .inr ⟨_, decoded, ?_⟩
  by_cases field : o.key.field = o'.key.field
  · exact .inr fun direction => other ⟨field, direction⟩
  · exact .inl fun name => field (SortField.cursorName_injective name)

open PageRequest (following preceding) in
/-- Making the connection of a page in one of the orders of a type never fails, and it has an edge for each
item. A request without a size may start after the cursor of an edge or stop before it: the cursor is read with
the field and the direction of the order, and the identifier and the text of the item. In every other order of
the type, both requests are refused for the cursor. -/
theorem cursors_bound_to_order (t : Sortable) (i : Fin (Order.all t.Item).length) (nodeOf : t.Item → ν)
    (p : Page t.Item) (s : PageSettings) :
    let o := (Order.all t.Item).get i
    ∃ conn : Connection ν,
      Connection.fromPage (fun a => (.ok (Cursor.ofItem o a).encode : Except Rejection String))
        (fun a => (pure (nodeOf a) : Id ν)) p = pure (.ok conn) ∧
      conn = Connection.ofPage o nodeOf p ∧ conn.edges.length = p.items.length ∧
      ∀ (k : Nat) (a : t.Item), p.items[k]? = some a → ∃ e c, conn.edges[k]? = some e ∧
        (following e.cursor).window o s = .ok (.forward s.defaultSize (some c)) ∧
        (preceding e.cursor).window o s = .ok (.backward s.defaultSize (some c)) ∧
        c.field = o.key.field.cursorName ∧ c.direction = o.direction ∧
        c.id = Listed.id a ∧ c.value = o.key.text a ∧
        ∀ j, j ≠ i →
          (∃ reason, (following e.cursor).window ((Order.all t.Item).get j) s =
            .error (.invalidCursor reason)) ∧
          ∃ reason, (preceding e.cursor).window ((Order.all t.Item).get j) s =
            .error (.invalidCursor reason) := by
  intro o
  refine ⟨_, Connection.fromPage_ofItem o nodeOf p, rfl, List.length_map .., fun k a here => ?_⟩
  have read := PageRequest.readCursor_ofItem o a
  refine ⟨⟨(Cursor.ofItem o a).encode, nodeOf a⟩, Cursor.ofItem o a, ?_, PageRequest.window_following read,
    PageRequest.window_preceding read, rfl, rfl, rfl, rfl, fun j other => ?_⟩
  · simp [Connection.ofPage, Connection.ofEdges, here]
  · have useless := Cursor.unusable_ofItem (Order.apart t.fields_nodup other.symm) a
    exact ⟨PageRequest.window_useless (by simp [following, PageRequest.Incoherent]) (.inl rfl) useless,
      PageRequest.window_useless (by simp [preceding, PageRequest.Incoherent]) (.inr rfl) useless⟩

open PageRequest (following) in
theorem cursors_bound_to_order_roles :
    ∃ (conn : Connection String) (e : Edge String) (c : Cursor),
      conn = Connection.ofPage (Listed.standard : Order Role) (·.name) (Page.cut Page.fourRoles 1 3) ∧
      conn.edges[1]? = some e ∧
      (following e.cursor).window (Listed.standard : Order Role) .standard = .ok (.forward 20 (some c)) ∧
      c.field = "name" ∧ c.direction = .ascending ∧ c.value = "deployer" ∧ c.id = "2" ∧
      ∃ reason, (following e.cursor).window (Listed.standard : Order Role).reverse .standard =
        .error (.invalidCursor reason) := by
  obtain ⟨conn, -, made, -, edges⟩ := cursors_bound_to_order .role ⟨0, by decide⟩ (fun r => (r.name : String))
    (Page.cut Page.fourRoles 1 3) .standard
  obtain ⟨e, c, edge, accepted, -, field, direction, id, value, others⟩ := edges 1 _ rfl
  obtain ⟨foreign, -⟩ := others ⟨1, by decide⟩ (by decide)
  exact ⟨conn, e, c, made, edge, accepted, field, direction, value, id, foreign⟩

end InfraGraph

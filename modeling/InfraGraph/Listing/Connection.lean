import InfraGraph.Listing.Page

/-!
Connections: pages as clients see them, each item with its cursor. Cursor and node are made item by
item, in order, and the first cursor that fails ends the work. The flags and the total are those of
the page.
-/

namespace InfraGraph

structure Edge (ν : Type) where
  cursor : String
  node : ν

structure PageInfo where
  hasNext : Bool
  hasPrevious : Bool
  startCursor : Option String
  endCursor : Option String
  deriving DecidableEq, Repr

structure Connection (ν : Type) where
  edges : List (Edge ν)
  pageInfo : PageInfo
  total : Int

namespace Connection

variable {m : Type → Type} [Monad m] {α ν ε : Type}

def edgesOf (cursorOf : α → Except ε String) (nodeOf : α → m ν) :
    List α → m (Except ε (List (Edge ν)))
  | [] => pure (.ok [])
  | a :: rest =>
      match cursorOf a with
      | .error e => pure (.error e)
      | .ok cursor => do
          let node ← nodeOf a
          let edges ← edgesOf cursorOf nodeOf rest
          return edges.map (⟨cursor, node⟩ :: ·)

def ofEdges (hasNext hasPrevious : Bool) (total : Int) (edges : List (Edge ν)) : Connection ν :=
  ⟨edges, ⟨hasNext, hasPrevious, edges.head?.map (·.cursor), edges.getLast?.map (·.cursor)⟩, total⟩

def fromPage (cursorOf : α → Except ε String) (nodeOf : α → m ν) (p : Page α) :
    m (Except ε (Connection ν)) := do
  let edges ← edgesOf cursorOf nodeOf p.items
  return edges.map (ofEdges p.hasNext p.hasPrevious p.total)

def empty : Connection ν :=
  ofEdges false false 0 []

/-- The connection of a listing in the given order; cursors of entities never fail. -/
def ofPage [Listed α] (o : Order α) (nodeOf : α → ν) (p : Page α) : Connection ν :=
  ofEdges p.hasNext p.hasPrevious p.total
    (p.items.map fun a => ⟨(Cursor.ofItem o a).encode, nodeOf a⟩)

end Connection

end InfraGraph

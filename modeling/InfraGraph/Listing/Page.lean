import InfraGraph.Fault
import InfraGraph.Listing.Window

/-!
Pages: the part of a sorted list that a window shows. A cursor stands at the entity with its
identifier, wherever that entity is in the list now. Positions are counted in 64 bits, so a negative
size, which only settings can bring in, acts as a very large one.
-/

namespace InfraGraph

structure Page (α : Type) where
  items : List α
  hasNext : Bool
  hasPrevious : Bool
  total : Int

namespace Page

variable {α : Type}

def noMatch : Fault :=
  .invalidInput "cursor does not match any item"

def position [Listed α] (items : List α) (c : Cursor) : Except Fault Nat :=
  match items.findIdx? (Listed.id · = c.id) with
  | none => .error noMatch
  | some i => .ok i

def word64 (n : Int) : Nat :=
  (n % 18446744073709551616).toNat

def cut (items : List α) (start stop : Nat) : Page α :=
  ⟨(items.drop start).take (stop - start), stop < items.length, 0 < start, items.length⟩

def ofSorted [Listed α] (items : List α) : Window → Except Fault (Page α)
  | .forward n none => .ok (cut items 0 (min items.length (word64 n)))
  | .forward n (some c) => do
      let i ← position items c
      return cut items (i + 1) (min items.length (word64 (i + 1 + n)))
  | .backward n none => .ok (cut items (items.length - word64 n) items.length)
  | .backward n (some c) => do
      let stop ← position items c
      return cut items (stop - word64 n) stop

def ofList [Listed α] (o : Order α) (w : Window) (items : List α) : Except Fault (Page α) :=
  ofSorted (o.sort items) w

end Page

structure Listing (α : Type) where
  order : Order α
  window : Window

def Listing.page {α : Type} [Listed α] (l : Listing α) (items : List α) : Except Fault (Page α) :=
  Page.ofList l.order l.window items

end InfraGraph

/-!
Orders of a listing. A listed entity has an identifier and some texts it can be sorted by; an order
picks one of the texts and a direction. Entities of equal text go by identifier, so an order of
entities with different identifiers leaves no two of them level.
-/

namespace InfraGraph

inductive SortField
  | username
  | name
  | fullPath
  | createdAt
  | updatedAt
  deriving DecidableEq, Repr

namespace SortField

def cursorName : SortField → String
  | username => "username"
  | name => "name"
  | fullPath => "full_path"
  | createdAt => "created_at"
  | updatedAt => "updated_at"

def label : SortField → String
  | username => "USERNAME"
  | name => "NAME"
  | fullPath => "FULL_PATH"
  | createdAt => "CREATED_AT"
  | updatedAt => "UPDATED_AT"

end SortField

inductive Direction
  | ascending
  | descending
  deriving DecidableEq, Repr

namespace Direction

def name : Direction → String
  | ascending => "asc"
  | descending => "desc"

def label : Direction → String
  | ascending => "ASC"
  | descending => "DESC"

def word : Direction → String
  | ascending => "Asc"
  | descending => "Desc"

def ofName? (name : String) : Option Direction :=
  [ascending, descending].find? (·.name = name)

def reverse : Direction → Direction
  | ascending => descending
  | descending => ascending

def apply : Direction → Ordering → Ordering
  | ascending, o => o
  | descending, o => o.swap

end Direction

structure SortKey (α : Type) where
  field : SortField
  text : α → String

structure Order (α : Type) where
  key : SortKey α
  direction : Direction

class Listed (α : Type) where
  id : α → String
  keys : List (SortKey α)
  standard : Order α

namespace Order

variable {α : Type}

def label (o : Order α) : String :=
  s!"{o.key.field.label}_{o.direction.label}"

def all (α : Type) [Listed α] : List (Order α) :=
  (Listed.keys (α := α)).flatMap fun k => [⟨k, .ascending⟩, ⟨k, .descending⟩]

def ofLabel? [Listed α] (label : String) : Option (Order α) :=
  (all α).find? (·.label = label)

def reverse (o : Order α) : Order α :=
  { o with direction := o.direction.reverse }

def sameAs (o p : Order α) : Bool :=
  o.key.field = p.key.field ∧ o.direction = p.direction

def isStandard [Listed α] (o : Order α) : Bool :=
  o.sameAs Listed.standard

def compare [Listed α] (o : Order α) (a b : α) : Ordering :=
  o.direction.apply <|
    (Ord.compare (o.key.text a) (o.key.text b)).then (Ord.compare (Listed.id a) (Listed.id b))

def le [Listed α] (o : Order α) (a b : α) : Bool :=
  o.compare a b != .gt

def sort [Listed α] (o : Order α) (items : List α) : List α :=
  items.mergeSort o.le

end Order

end InfraGraph

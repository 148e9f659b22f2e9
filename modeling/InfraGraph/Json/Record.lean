import InfraGraph.Json.Document
import InfraGraph.Json.Quoted
import InfraGraph.Text.Digits

/-!
Reading a document as a record with known fields. A record is an object, in which unknown members are
passed over and a known one may not be repeated, or an array of the fields in their order.
-/

namespace InfraGraph.Json

/-- Whether a record written as an array must hold all fields or may stop early. -/
inductive Fullness
  | complete
  | partly
  deriving DecidableEq, Repr

namespace Document

def text? : Document → Option String
  | .string raw => Quoted.decode raw
  | _ => none

def bool? : Document → Option Bool
  | .bool b => some b
  | _ => none

def digitsNat (bs : List UInt8) : Nat :=
  bs.foldl (fun n b => n * 10 + (b.toNat - 48)) 0

/-- An integer written without fraction and exponent; minus zero is not one. -/
def int? : Document → Option Int
  | .number lexeme =>
      if isInteger lexeme ∧ lexeme ≠ [45, 48] then
        some (if lexeme.head? = some 45 then -(digitsNat (dropMinus lexeme)) else digitsNat lexeme)
      else none
  | _ => none

def intWithin? (low high : Int) (d : Document) : Option Int := do
  let n ← d.int?
  if low ≤ n ∧ n ≤ high then some n else none

def members? : List (List UInt8 × Document) → Option (List (String × Document))
  | [] => some []
  | (raw, d) :: rest => do
      let key ← Quoted.decode raw
      let more ← members? rest
      some ((key, d) :: more)

def known (names : List String) (members : List (String × Document)) : List (String × Document) :=
  members.filter fun m => names.contains m.1

def fields? (names : List String) (fullness : Fullness) : Document → Option (List (Option Document))
  | .object members => do
      let members ← members? members
      let found := known names members
      if (found.map (·.1)).Nodup then some (names.map fun n => found.lookup n) else none
  | .array items =>
      if items.length = names.length ∨ (fullness = .partly ∧ items.length < names.length) then
        some (items.map some ++ List.replicate (names.length - items.length) none)
      else none
  | _ => none

def required? {α : Type} (read : Document → Option α) : Option Document → Option α
  | none => none
  | some d => read d

def optional? {α : Type} (read : Document → Option α) : Option Document → Option (Option α)
  | none => some none
  | some .null => some none
  | some d => (read d).map some

def orElse? {α : Type} (value : α) (read : Document → Option α) : Option Document → Option α
  | none => some value
  | some d => read d

end Document

end InfraGraph.Json

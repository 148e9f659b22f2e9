import InfraGraph.Json.Record
import InfraGraph.Listing.Order
import InfraGraph.Rejection
import InfraGraph.Text.Base64
import InfraGraph.Text.Digits

/-!
Cursors: opaque texts that mark an entity's place in a listing. A cursor remembers the field and
direction of the listing, and the entity's text and identifier; it is JSON in standard base64. Only
version 1 is read, and a cursor serves only the order it was made for.
-/

namespace InfraGraph

open Json Text

structure Cursor where
  version : UInt8
  field : String
  direction : Direction
  value : String
  id : String
  deriving DecidableEq, Repr

namespace Cursor

inductive Flaw
  | notBase64
  | notUtf8
  | notJson
  | unknownVersion (version : UInt8)
  | otherOrder (field : String) (direction : Direction) (field' : String) (direction' : Direction)
  deriving DecidableEq, Repr

def Flaw.reason : Flaw → String
  | notBase64 => "<base64>"
  | notUtf8 => "<utf-8>"
  | notJson => "<json>"
  | unknownVersion version => s!"unsupported cursor version {version.toNat}"
  | otherOrder field direction field' direction' =>
      let issued := direction.word
      let asked := direction'.word
      "cursor was issued for sort " ++ field ++ " " ++ issued ++ ", not " ++ field' ++ " " ++ asked

def Flaw.rejection (f : Flaw) : Rejection :=
  .invalidCursor f.reason

def ofItem {α : Type} [Listed α] (o : Order α) (a : α) : Cursor :=
  ⟨1, o.key.field.cursorName, o.direction, o.key.text a, Listed.id a⟩

def member (name value : String) : List UInt8 :=
  utf8 ",\"" ++ utf8 name ++ utf8 "\":\"" ++ Quoted.encode value ++ utf8 "\""

def json (c : Cursor) : List UInt8 :=
  utf8 "\x7b\"v\":" ++ utf8 c.version.toNat.repr ++ member "f" c.field ++
    member "d" c.direction.name ++ member "k" c.value ++ member "id" c.id ++ utf8 "\x7d"

def encode (c : Cursor) : String :=
  Base64.standard.encode c.json

def direction? : Document → Option Direction
  | .string raw => (Quoted.decode raw).bind Direction.ofName?
  | .object [(raw, .null)] => (Quoted.decode raw).bind Direction.ofName?
  | _ => none

def ofDocument? (d : Document) : Option Cursor := do
  match ← d.fields? ["v", "f", "d", "k", "id"] .complete with
  | [v, f, d, k, id] =>
      let v ← Document.required? (Document.intWithin? 0 255) v
      let f ← Document.required? Document.text? f
      let d ← Document.required? direction? d
      let k ← Document.required? Document.text? k
      let id ← Document.required? Document.text? id
      some ⟨UInt8.ofNat v.toNat, f, d, k, id⟩
  | _ => none

def decode (text : String) : Except Flaw Cursor :=
  match Base64.standard.decode text with
  | none => .error .notBase64
  | some bytes =>
    match ofUtf8? bytes with
    | none => .error .notUtf8
    | some _ =>
      match (Document.ofBytes? bytes).bind ofDocument? with
      | none => .error .notJson
      | some c => if c.version = 1 then .ok c else .error (.unknownVersion c.version)

def forOrder {α : Type} (o : Order α) (c : Cursor) : Except Flaw Cursor :=
  if c.field = o.key.field.cursorName ∧ c.direction = o.direction then .ok c
  else .error (.otherOrder c.field c.direction o.key.field.cursorName o.direction)

end Cursor

end InfraGraph

import InfraGraph.Entity.Kind
import InfraGraph.Rejection
import InfraGraph.Text.Base64
import InfraGraph.Text.Utf8
import InfraGraph.Text.Uuid

/-!
Global identifiers: the code of a kind, an underscore and the identifier within the kind, in URL-safe
base64. Writing takes any identifier; reading takes UUIDs only, as they are spelled.
-/

namespace InfraGraph

open Text

structure GlobalId where
  kind : Kind
  id : String
  deriving DecidableEq, Repr

namespace GlobalId

inductive Flaw
  | notBase64 (text : String)
  | notUtf8 (text : String)
  | missingType (text : String)
  | unknownType (text : String)
  | malformed (text : String)
  | otherKind (expected found : Kind)
  deriving DecidableEq, Repr

def Flaw.reason : Flaw → String
  | notBase64 text => s!"{text}: not base64"
  | notUtf8 text => s!"{text}: not utf-8"
  | missingType text => s!"{text}: missing type"
  | unknownType text => s!"{text}: unknown type"
  | malformed text => s!"{text}: malformed identifier"
  | otherKind expected found => s!"expected a {expected.name} ID but got a {found.name} ID"

def Flaw.rejection (f : Flaw) : Rejection :=
  .invalidId f.reason

def encode (g : GlobalId) : String :=
  Base64.urlSafe.encode (utf8 (g.kind.code ++ "_" ++ g.id))

def split? (text : String) : Option (String × String) :=
  let cs := text.toList
  match cs.dropWhile (· ≠ '_') with
  | [] => none
  | _ :: rest => some (String.ofList (cs.takeWhile (· ≠ '_')), String.ofList rest)

def decode (text : String) : Except Flaw GlobalId :=
  match Base64.urlSafe.decode text with
  | none => .error (.notBase64 text)
  | some bytes =>
    match ofUtf8? bytes with
    | none => .error (.notUtf8 text)
    | some plain =>
      match split? plain with
      | none => .error (.missingType text)
      | some (code, id) =>
        match Kind.ofCode? code with
        | none => .error (.unknownType text)
        | some kind => if Uuid.isUuid id then .ok ⟨kind, id⟩ else .error (.malformed text)

def decodeAs (kind : Kind) (text : String) : Except Flaw String :=
  match decode text with
  | .error f => .error f
  | .ok g => if g.kind = kind then .ok g.id else .error (.otherKind kind g.kind)

end GlobalId

end InfraGraph

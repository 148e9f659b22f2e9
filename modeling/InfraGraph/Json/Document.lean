import InfraGraph.Json.Token

/-!
JSON documents. A document is read from its tokens by a pushdown automaton: the stack holds the
arrays and objects that are still open, so nesting may go to any depth. Strings and numbers stay as
they were written, and an object keeps all its members in order, repeated ones included.
-/

namespace InfraGraph.Json

inductive Document
  | null
  | bool (value : Bool)
  | number (lexeme : List UInt8)
  | string (raw : List UInt8)
  | array (items : List Document)
  | object (members : List (List UInt8 × Document))

namespace Document

inductive Frame
  | array (items : List Document)
  | object (members : List (List UInt8 × Document)) (key : List UInt8)

inductive Reader
  | value (stack : List Frame)
  | firstItem (stack : List Frame)
  | firstKey (stack : List Frame)
  | key (members : List (List UInt8 × Document)) (stack : List Frame)
  | colon (members : List (List UInt8 × Document)) (key : List UInt8) (stack : List Frame)
  | afterItem (items : List Document) (stack : List Frame)
  | afterMember (members : List (List UInt8 × Document)) (stack : List Frame)
  | complete (document : Document)

namespace Reader

def accept (d : Document) : List Frame → Reader
  | [] => complete d
  | .array items :: stack => afterItem (d :: items) stack
  | .object members k :: stack => afterMember ((k, d) :: members) stack

def begin? (stack : List Frame) : Token → Option Reader
  | .null => some (accept .null stack)
  | .bool b => some (accept (.bool b) stack)
  | .number lexeme => some (accept (.number lexeme) stack)
  | .string raw => some (accept (.string raw) stack)
  | .leftBracket => some (firstItem stack)
  | .leftBrace => some (firstKey stack)
  | _ => none

def next? : Reader → Token → Option Reader
  | value stack, t => begin? stack t
  | firstItem stack, .rightBracket => some (accept (.array []) stack)
  | firstItem stack, t => begin? (.array [] :: stack) t
  | firstKey stack, .rightBrace => some (accept (.object []) stack)
  | firstKey stack, .string raw => some (colon [] raw stack)
  | key members stack, .string raw => some (colon members raw stack)
  | colon members k stack, .colon => some (value (.object members k :: stack))
  | afterItem items stack, .comma => some (value (.array items :: stack))
  | afterItem items stack, .rightBracket => some (accept (.array items.reverse) stack)
  | afterMember members stack, .comma => some (key members stack)
  | afterMember members stack, .rightBrace => some (accept (.object members.reverse) stack)
  | _, _ => none

def feed : Reader → List Token → Option Reader
  | r, [] => some r
  | r, t :: ts => (r.next? t).bind fun r => r.feed ts

end Reader

def ofTokens? (ts : List Token) : Option Document :=
  match (Reader.value []).feed ts with
  | some (.complete d) => some d
  | _ => none

def ofBytes? (text : List UInt8) : Option Document :=
  (Token.scan text).bind ofTokens?

end Document

end InfraGraph.Json

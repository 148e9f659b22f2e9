/-!
The tokens of JSON text. Reading is one pass of an automaton over the bytes; a string keeps its
escapes as written, and only their form is checked. Words and numbers run as far as they can and are
classified at their end.
-/

namespace InfraGraph.Json

inductive Token
  | leftBrace
  | rightBrace
  | leftBracket
  | rightBracket
  | colon
  | comma
  | null
  | bool (value : Bool)
  | number (lexeme : List UInt8)
  | string (raw : List UInt8)
  deriving DecidableEq, Repr

def isBlank (b : UInt8) : Bool :=
  b == 32 || b == 9 || b == 10 || b == 13

def isDigit (b : UInt8) : Bool :=
  48 ≤ b && b ≤ 57

def isHex (b : UInt8) : Bool :=
  isDigit b || (65 ≤ b && b ≤ 70) || (97 ≤ b && b ≤ 102)

def isSimpleEscape (b : UInt8) : Bool :=
  b == 34 || b == 92 || b == 47 || b == 98 || b == 102 || b == 110 || b == 114 || b == 116

def isWord (b : UInt8) : Bool :=
  isDigit b || (65 ≤ b && b ≤ 90) || (97 ≤ b && b ≤ 122) || b == 43 || b == 45 || b == 46

def isDigits (bs : List UInt8) : Bool :=
  !bs.isEmpty && bs.all isDigit

def isNatural : List UInt8 → Bool
  | [] => false
  | [b] => isDigit b
  | b :: bs => b != 48 && isDigit b && bs.all isDigit

def dropMinus : List UInt8 → List UInt8
  | 45 :: bs => bs
  | bs => bs

def isInteger (bs : List UInt8) : Bool :=
  isNatural (dropMinus bs)

def isExponent : List UInt8 → Bool
  | [] => true
  | e :: bs =>
      (e == 101 || e == 69) &&
        match bs with
        | 43 :: ds => isDigits ds
        | 45 :: ds => isDigits ds
        | ds => isDigits ds

def isFraction : List UInt8 → Bool
  | 46 :: bs => isDigits (bs.takeWhile isDigit) && isExponent (bs.dropWhile isDigit)
  | bs => isExponent bs

def isNumber (bs : List UInt8) : Bool :=
  let bs := dropMinus bs
  isNatural (bs.takeWhile isDigit) && isFraction (bs.dropWhile isDigit)

namespace Token

def ofWord? (bs : List UInt8) : Option Token :=
  if bs = "null".toUTF8.data.toList then some .null
  else if bs = "true".toUTF8.data.toList then some (.bool true)
  else if bs = "false".toUTF8.data.toList then some (.bool false)
  else if isNumber bs then some (.number bs)
  else none

def ofMark? (b : UInt8) : Option Token :=
  if b = 123 then some .leftBrace
  else if b = 125 then some .rightBrace
  else if b = 91 then some .leftBracket
  else if b = 93 then some .rightBracket
  else if b = 58 then some .colon
  else if b = 44 then some .comma
  else none

/-- What the automaton is inside of; texts under way are kept in reverse. -/
inductive Mode
  | between
  | word (text : List UInt8)
  | quoted (text : List UInt8)
  | escaped (text : List UInt8)
  | hex (digits : Nat) (text : List UInt8)
  deriving DecidableEq, Repr

namespace Mode

def start (b : UInt8) : Option (List Token × Mode) :=
  if isBlank b then some ([], between)
  else if b = 34 then some ([], quoted [])
  else if isWord b then some ([], word [b])
  else (ofMark? b).map fun t => ([t], between)

def next : Mode → UInt8 → Option (List Token × Mode)
  | between, b => start b
  | word text, b =>
      if isWord b then some ([], word (b :: text))
      else do
        let t ← ofWord? text.reverse
        let (ts, mode) ← start b
        some (t :: ts, mode)
  | quoted text, b =>
      if b = 34 then some ([.string text.reverse], between)
      else if b = 92 then some ([], escaped (b :: text))
      else if b < 32 then none
      else some ([], quoted (b :: text))
  | escaped text, b =>
      if b = 117 then some ([], hex 4 (b :: text))
      else if isSimpleEscape b then some ([], quoted (b :: text))
      else none
  | hex digits text, b =>
      if isHex b then
        some ([], if digits = 1 then quoted (b :: text) else hex (digits - 1) (b :: text))
      else none

def finish : Mode → Option (List Token)
  | between => some []
  | word text => (ofWord? text.reverse).map ([·])
  | _ => none

end Mode

def scanFrom (mode : Mode) : List UInt8 → Option (List Token)
  | [] => mode.finish
  | b :: rest => do
      let (ts, mode) ← mode.next b
      let more ← scanFrom mode rest
      some (ts ++ more)

def scan (text : List UInt8) : Option (List Token) :=
  scanFrom .between text

end Token

end InfraGraph.Json

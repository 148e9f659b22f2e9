/-!
Digits: numbers written to a fixed width, in decimal or in hexadecimal, and runs of decimal digits
read back.
-/

namespace InfraGraph.Text

def lastDigits : (width : Nat) → Nat → List Char
  | 0, _ => []
  | width + 1, n => lastDigits width (n / 10) ++ [Char.ofNat (n % 10 + 48)]

def padded (width n : Nat) : List Char :=
  if n < Nat.pow 10 width then lastDigits width n else n.repr.toList

def hexDigit (n : Nat) : Char :=
  Char.ofNat (if n < 10 then n + 48 else n + 87)

def lastHexDigits : (width : Nat) → Nat → List Char
  | 0, _ => []
  | width + 1, n => lastHexDigits width (n / 16) ++ [hexDigit (n % 16)]

def isDigit (c : Char) : Bool :=
  '0' ≤ c && c ≤ '9'

def digitsValue (cs : List Char) : Nat :=
  cs.foldl (fun n c => n * 10 + (c.toNat - 48)) 0

def takeDigits? (width : Nat) (cs : List Char) : Option (Nat × List Char) :=
  let front := cs.take width
  if front.length = width ∧ front.all isDigit then some (digitsValue front, cs.drop width) else none

end InfraGraph.Text

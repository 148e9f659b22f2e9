import InfraGraph.Json.Token
import InfraGraph.Text.Utf8

/-!
The inside of a JSON string. Writing escapes the quote, the backslash and the control characters and
leaves all else as UTF-8. Reading takes every escape of JSON, pairs of surrogates included, and
refuses surrogates that stand alone.
-/

namespace InfraGraph.Json.Quoted

open InfraGraph.Text

def hexDigit (n : UInt8) : UInt8 :=
  if n < 10 then n + 48 else n + 87

/-- One byte as it is written; control characters without a letter of their own go by number. -/
def escape (b : UInt8) : List UInt8 :=
  if b = 34 then [92, 34]
  else if b = 92 then [92, 92]
  else if b = 8 then [92, 98]
  else if b = 9 then [92, 116]
  else if b = 10 then [92, 110]
  else if b = 12 then [92, 102]
  else if b = 13 then [92, 114]
  else if b < 32 then [92, 117, 48, 48, hexDigit (b / 16), hexDigit (b % 16)]
  else [b]

def encode (text : String) : List UInt8 :=
  (utf8 text).flatMap escape

def hexValue (b : UInt8) : Nat :=
  if isDigit b then b.toNat - 48
  else if b < 97 then b.toNat - 55
  else b.toNat - 87

def unit (a b c d : UInt8) : Nat :=
  ((hexValue a * 16 + hexValue b) * 16 + hexValue c) * 16 + hexValue d

def isHighSurrogate (u : Nat) : Bool :=
  0xD800 ≤ u && u < 0xDC00

def isLowSurrogate (u : Nat) : Bool :=
  0xDC00 ≤ u && u < 0xE000

def codeBytes (n : Nat) : List UInt8 :=
  String.utf8EncodeChar (Char.ofNat n)

def simple? (b : UInt8) : Option UInt8 :=
  if b = 34 ∨ b = 92 ∨ b = 47 then some b
  else if b = 98 then some 8
  else if b = 102 then some 12
  else if b = 110 then some 10
  else if b = 114 then some 13
  else if b = 116 then some 9
  else none

def unescape : List UInt8 → Option (List UInt8)
  | [] => some []
  | [b] => if b = 92 then none else some [b]
  | b :: e :: rest =>
      if b ≠ 92 then (unescape (e :: rest)).map (b :: ·)
      else if e ≠ 117 then do
        let s ← simple? e
        let more ← unescape rest
        some (s :: more)
      else
        match rest with
        | h₁ :: h₂ :: h₃ :: h₄ :: rest =>
            let u := unit h₁ h₂ h₃ h₄
            if isLowSurrogate u then none
            else if isHighSurrogate u then
              match rest with
              | b' :: e' :: l₁ :: l₂ :: l₃ :: l₄ :: rest =>
                  let v := unit l₁ l₂ l₃ l₄
                  if b' = 92 ∧ e' = 117 ∧ isLowSurrogate v then
                    (unescape rest).map
                      (codeBytes (0x10000 + (u - 0xD800) * 0x400 + (v - 0xDC00)) ++ ·)
                  else none
              | _ => none
            else (unescape rest).map (codeBytes u ++ ·)
        | _ => none

def decode (raw : List UInt8) : Option String :=
  (unescape raw).bind ofUtf8?

end InfraGraph.Json.Quoted

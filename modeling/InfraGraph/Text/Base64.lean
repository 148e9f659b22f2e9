/-!
Base64 in the two alphabets of the service: the standard one with padding for cursors, and the
URL-safe one without padding for global identifiers. Three bytes make four letters. Reading accepts
only what writing produces: bits that carry nothing are zero, and padding is there exactly when the
alphabet asks for it.
-/

namespace InfraGraph.Text

/-- An alphabet is told by its last two letters and by whether groups are padded with `=`. -/
structure Base64 where
  letter62 : Char
  letter63 : Char
  padded : Bool

namespace Base64

def standard : Base64 := ⟨'+', '/', true⟩

def urlSafe : Base64 := ⟨'-', '_', false⟩

def letter (b : Base64) (n : Nat) : Char :=
  if n < 26 then Char.ofNat (n + 65)
  else if n < 52 then Char.ofNat (n + 71)
  else if n < 62 then Char.ofNat (n - 4)
  else if n = 62 then b.letter62
  else b.letter63

def value? (b : Base64) (c : Char) : Option Nat :=
  if 'A' ≤ c ∧ c ≤ 'Z' then some (c.toNat - 65)
  else if 'a' ≤ c ∧ c ≤ 'z' then some (c.toNat - 71)
  else if '0' ≤ c ∧ c ≤ '9' then some (c.toNat + 4)
  else if c = b.letter62 then some 62
  else if c = b.letter63 then some 63
  else none

def padding (b : Base64) (n : Nat) : List Char :=
  if b.padded then List.replicate n '=' else []

def letters (b : Base64) : List UInt8 → List Char
  | [] => []
  | [x] => b.letter (x.toNat / 4) :: b.letter (x.toNat % 4 * 16) :: b.padding 2
  | [x, y] =>
      b.letter (x.toNat / 4) :: b.letter (x.toNat % 4 * 16 + y.toNat / 16) ::
        b.letter (y.toNat % 16 * 4) :: b.padding 1
  | x :: y :: z :: rest =>
      b.letter (x.toNat / 4) :: b.letter (x.toNat % 4 * 16 + y.toNat / 16) ::
        b.letter (y.toNat % 16 * 4 + z.toNat / 64) :: b.letter (z.toNat % 64) :: b.letters rest

def lastByte? (b : Base64) (p q : Char) : Option (List UInt8) := do
  let p ← b.value? p
  let q ← b.value? q
  if q % 16 = 0 then some [UInt8.ofNat (p * 4 + q / 16)] else none

def lastBytes? (b : Base64) (p q r : Char) : Option (List UInt8) := do
  let p ← b.value? p
  let q ← b.value? q
  let r ← b.value? r
  if r % 4 = 0 then
    some [UInt8.ofNat (p * 4 + q / 16), UInt8.ofNat (q % 16 * 16 + r / 4)]
  else none

def bytes? (b : Base64) : List Char → Option (List UInt8)
  | [] => some []
  | [p, q] => if b.padded then none else b.lastByte? p q
  | [p, q, r] => if b.padded then none else b.lastBytes? p q r
  | p :: q :: r :: s :: rest =>
      if b.padded ∧ s = '=' ∧ rest = [] then
        if r = '=' then b.lastByte? p q else b.lastBytes? p q r
      else do
        let p ← b.value? p
        let q ← b.value? q
        let r ← b.value? r
        let s ← b.value? s
        let rest ← b.bytes? rest
        some (UInt8.ofNat (p * 4 + q / 16) :: UInt8.ofNat (q % 16 * 16 + r / 4) ::
          UInt8.ofNat (r % 4 * 64 + s) :: rest)
  | _ => none

def encode (b : Base64) (bytes : List UInt8) : String :=
  String.ofList (b.letters bytes)

def decode (b : Base64) (text : String) : Option (List UInt8) :=
  b.bytes? text.toList

end Base64

end InfraGraph.Text

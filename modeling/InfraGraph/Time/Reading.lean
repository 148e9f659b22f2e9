import InfraGraph.Time.Instant

/-!
Reading instants in the form of RFC 3339: a date, `T`, `t` or a blank, a time of day with an
optional fraction, and `Z`, `z` or an offset in hours and minutes. Second 60 is taken in any minute,
and fraction digits past the ninth are cut.
-/

namespace InfraGraph.Time.Instant

open InfraGraph.Text

def expect? (c : Char) : List Char → Option (List Char)
  | [] => none
  | d :: rest => if d = c then some rest else none

def isSeparator (c : Char) : Bool :=
  c == 'T' || c == 't' || c == ' '

def readDate? (cs : List Char) : Option (Date × List Char) := do
  let (y, cs) ← takeDigits? 4 cs
  let cs ← expect? '-' cs
  let (m, cs) ← takeDigits? 2 cs
  let cs ← expect? '-' cs
  let (d, cs) ← takeDigits? 2 cs
  let date : Date := ⟨y, m, d⟩
  if date.Valid then some (date, cs) else none

def readClock? (cs : List Char) : Option (Nat × Nat × Nat × List Char) := do
  let (h, cs) ← takeDigits? 2 cs
  let cs ← expect? ':' cs
  let (m, cs) ← takeDigits? 2 cs
  let cs ← expect? ':' cs
  let (s, cs) ← takeDigits? 2 cs
  if h < 24 ∧ m < 60 ∧ s ≤ 60 then some (h, m, s, cs) else none

/-- Nanoseconds of the fraction, which may be left out but not be empty. -/
def readFraction? : List Char → Option (Nat × List Char)
  | '.' :: rest =>
      let digits := rest.takeWhile isDigit
      if digits.isEmpty then none
      else
        let nine := digits.take 9
        let zeros := List.replicate (9 - nine.length) '0'
        some (digitsValue (nine ++ zeros), rest.dropWhile isDigit)
  | cs => some (0, cs)

/-- Seconds east of UTC. The minus sign proper stands for the hyphen too. -/
def readOffset? : List Char → Option (Int × List Char)
  | [] => none
  | c :: rest =>
      if c = 'Z' ∨ c = 'z' then some (0, rest)
      else if c = '+' ∨ c = '-' ∨ c = '\u2212' then do
        let (h, cs) ← takeDigits? 2 rest
        let cs ← expect? ':' cs
        let (m, cs) ← takeDigits? 2 cs
        if h < 24 ∧ m < 60 then
          let size : Int := h * 3600 + m * 60
          some (if c = '+' then size else -size, cs)
        else none
      else none

def readList? (cs : List Char) : Option Instant := do
  let (date, cs) ← readDate? cs
  let cs ← match cs with
    | c :: rest => if isSeparator c then some rest else none
    | [] => none
  let (h, m, s, cs) ← readClock? cs
  let (fraction, cs) ← readFraction? cs
  let (offset, cs) ← readOffset? cs
  if cs.isEmpty then
    let clock : Int := h * 3600 + m * 60 + min s 59
    some ⟨date.toDays * 86400 + clock - offset, fraction + if s = 60 then 1000000000 else 0⟩
  else none

def read? (text : String) : Option Instant :=
  readList? text.toList

end InfraGraph.Time.Instant

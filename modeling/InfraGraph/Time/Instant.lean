import InfraGraph.Text.Digits
import InfraGraph.Time.Calendar

/-!
Instants of UTC. The nanoseconds of a leap second run on from 1000000000 within the second before
it. An instant is written in full, or cut to microseconds where its text has to sort.
-/

namespace InfraGraph.Time

open InfraGraph.Text

structure Instant where
  seconds : Int
  nanos : Nat
  deriving DecidableEq, Repr

namespace Instant

def plusSeconds (t : Instant) (n : Nat) : Instant :=
  ⟨t.seconds + n, t.nanos % 1000000000⟩

def date (t : Instant) : Date :=
  Date.ofDays (t.seconds / 86400)

def secondOfDay (t : Instant) : Nat :=
  (t.seconds % 86400).toNat

def isLeapSecond (t : Instant) : Bool :=
  1000000000 ≤ t.nanos

/-- Years outside 0 to 9999 carry a sign, and at least four digits. -/
def yearText (y : Int) : List Char :=
  if 0 ≤ y ∧ y ≤ 9999 then padded 4 y.toNat
  else (if y < 0 then '-' else '+') :: padded 4 y.natAbs

def clockText (t : Instant) : List Char :=
  let d := t.date
  let s := t.secondOfDay
  yearText d.year ++ '-' :: padded 2 d.month.toNat ++ '-' :: padded 2 d.day.toNat ++
    'T' :: padded 2 (s / 3600) ++ ':' :: padded 2 (s / 60 % 60) ++
    ':' :: padded 2 (s % 60 + if t.isLeapSecond then 1 else 0)

/-- No digits, or three, six or nine: the fewest that lose nothing. -/
def fractionText (nanos : Nat) : List Char :=
  if nanos = 0 then []
  else if nanos % 1000000 = 0 then '.' :: padded 3 (nanos / 1000000)
  else if nanos % 1000 = 0 then '.' :: padded 6 (nanos / 1000)
  else '.' :: padded 9 nanos

def text (t : Instant) : String :=
  String.ofList (t.clockText ++ fractionText (t.nanos % 1000000000) ++ "+00:00".toList)

/-- The text by which instants are sorted: always six digits, cut and not rounded. -/
def sortText (t : Instant) : String :=
  String.ofList (t.clockText ++ '.' :: padded 6 (t.nanos % 1000000000 / 1000) ++ ['Z'])

end Instant

end InfraGraph.Time

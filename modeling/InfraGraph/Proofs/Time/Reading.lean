import Mathlib.Data.List.TakeWhile
import InfraGraph.Proofs.Text.Numerals
import InfraGraph.Proofs.Time.Dates
import InfraGraph.Graph.Scalar

/-!
What the texts of instants say. A text shows an instant on the clocks of some offset from UTC, and carries
that offset with it. The reader takes a text part by part, and each part has just one way to be read: so it
takes exactly these texts, each for the instant that it shows.
-/

namespace InfraGraph.Time.Instant

open InfraGraph.Text InfraGraph.Graph

/-- The nanoseconds are those of one second, or of a leap second at the end of a minute. -/
structure Valid (t : Instant) : Prop where
  nanos : t.nanos < 2000000000
  leap : t.isLeapSecond → t.seconds % 60 = 59

/-- The instant at which the clocks of UTC show what those at an offset east of it show at this one. -/
def shift (t : Instant) (offset : Int) : Instant :=
  ⟨t.seconds + offset, t.nanos⟩

def dateText (d : Date) : List Char :=
  padded 4 d.year.toNat ++ '-' :: padded 2 d.month.toNat ++ '-' :: padded 2 d.day.toNat

def timeText (h m s : Nat) : List Char :=
  padded 2 h ++ ':' :: padded 2 m ++ ':' :: padded 2 s

def timeOfDayText (t : Instant) : List Char :=
  timeText (t.secondOfDay / 3600) (t.secondOfDay / 60 % 60)
    (t.secondOfDay % 60 + if t.isLeapSecond then 1 else 0)

inductive Fraction : List Char → Nat → Prop
  | absent : Fraction [] 0
  | digits {ds : List Char} : ds ≠ [] → (∀ c ∈ ds, isDigit c) →
      Fraction ('.' :: ds) (digitsValue ds * 10 ^ 9 / 10 ^ ds.length)

inductive Offset : List Char → Int → Prop
  | utc {c : Char} : c = 'Z' ∨ c = 'z' → Offset [c] 0
  | east {h m : Nat} : h < 24 → m < 60 →
      Offset ('+' :: (padded 2 h ++ ':' :: padded 2 m)) (h * 3600 + m * 60)
  | west {c : Char} {h m : Nat} : c = '-' ∨ c = '\u2212' → h < 24 → m < 60 →
      Offset (c :: (padded 2 h ++ ':' :: padded 2 m)) (-(h * 3600 + m * 60))

/-- The texts that show an instant on the clocks of some offset. -/
inductive Denotes : List Char → Instant → Prop
  | shown {t : Instant} {offset : Int} {separator : Char} {fraction zone : List Char} :
      t.Valid → 0 ≤ (t.shift offset).date.year ∧ (t.shift offset).date.year ≤ 9999 →
      isSeparator separator → Fraction fraction (t.nanos % 1000000000) → Offset zone offset →
      Denotes (dateText (t.shift offset).date ++
        separator :: ((t.shift offset).timeOfDayText ++ (fraction ++ zone))) t

theorem expect?_eq_some_iff {c : Char} {cs rest : List Char} :
    expect? c cs = some rest ↔ cs = c :: rest := by
  cases cs with
  | nil => simp [expect?]
  | cons d ds => simp [expect?]

theorem readDate?_eq_some_iff {cs rest : List Char} {d : Date} :
    readDate? cs = some (d, rest) ↔
      d.Valid ∧ (0 ≤ d.year ∧ d.year ≤ 9999) ∧ cs = dateText d ++ rest := by
  simp only [readDate?, dateText, Option.bind_eq_bind, Option.bind_eq_some_iff, Prod.exists,
    takeDigits?_eq_some_iff, expect?_eq_some_iff, Option.ite_none_right_eq_some, Option.some.injEq,
    Prod.mk.injEq, List.append_assoc, List.cons_append]
  constructor
  · rintro ⟨y, _, ⟨hy, rfl⟩, _, rfl, m, _, ⟨hm, rfl⟩, _, rfl, day, _, ⟨hd, rfl⟩, valid, rfl, rfl⟩
    exact ⟨valid, ⟨Int.natCast_nonneg y, by dsimp only; omega⟩, rfl⟩
  · rintro ⟨valid, year, rfl⟩
    have month := Date.daysInMonth_mem d.year d.month
    obtain ⟨first, last, start, stop⟩ := valid
    refine ⟨_, _, ⟨by omega, rfl⟩, _, rfl, _, _, ⟨by omega, rfl⟩, _, rfl, _, _, ⟨by omega, rfl⟩, ?_⟩
    have same : (⟨d.year.toNat, d.month.toNat, d.day.toNat⟩ : Date) = d := by
      rw [Int.toNat_of_nonneg year.1, Int.toNat_of_nonneg (by omega), Int.toNat_of_nonneg (by omega)]
    rw [same]
    exact ⟨⟨first, last, start, stop⟩, rfl, rfl⟩

theorem readClock?_eq_some_iff {cs rest : List Char} {h m s : Nat} :
    readClock? cs = some (h, m, s, rest) ↔
      (h < 24 ∧ m < 60 ∧ s ≤ 60) ∧ cs = timeText h m s ++ rest := by
  simp only [readClock?, timeText, Option.bind_eq_bind, Option.bind_eq_some_iff, Prod.exists,
    takeDigits?_eq_some_iff, expect?_eq_some_iff, Option.ite_none_right_eq_some, Option.some.injEq,
    Prod.mk.injEq, List.append_assoc, List.cons_append]
  constructor
  · rintro ⟨h, _, ⟨hh, rfl⟩, _, rfl, m, _, ⟨hm, rfl⟩, _, rfl, s, _, ⟨hs, rfl⟩, valid, rfl, rfl, rfl, rfl⟩
    exact ⟨valid, rfl⟩
  · rintro ⟨valid, rfl⟩
    exact ⟨_, _, ⟨by omega, rfl⟩, _, rfl, _, _, ⟨by omega, rfl⟩, _, rfl, _, _, ⟨by omega, rfl⟩, valid,
      rfl, rfl, rfl, rfl⟩

theorem readOffset?_signed {c : Char} {h m : Nat} (sign : c = '+' ∨ c = '-' ∨ c = '\u2212') (hh : h < 24)
    (hm : m < 60) (rest : List Char) : readOffset? (c :: (padded 2 h ++ ':' :: padded 2 m) ++ rest) =
      some (if c = '+' then (h * 3600 + m * 60 : Int) else -(h * 3600 + m * 60), rest) := by
  have letter : ¬(c = 'Z' ∨ c = 'z') := by
    rcases sign with rfl | rfl | rfl <;> decide
  have hours : takeDigits? 2 (padded 2 h ++ ':' :: padded 2 m ++ rest) = some (h, ':' :: (padded 2 m ++ rest)) :=
    takeDigits?_eq_some_iff.mpr ⟨by omega, by simp⟩
  have minutes : takeDigits? 2 (padded 2 m ++ rest) = some (m, rest) :=
    takeDigits?_eq_some_iff.mpr ⟨by omega, rfl⟩
  rw [List.cons_append, readOffset?, if_neg letter, if_pos sign, hours]
  dsimp only [Option.bind_eq_bind, Option.bind_some]
  rw [expect?, if_pos rfl]
  dsimp only [Option.bind_some]
  rw [minutes]
  exact if_pos ⟨hh, hm⟩

theorem readOffset?_eq_some_iff {cs rest : List Char} {offset : Int} :
    readOffset? cs = some (offset, rest) ↔ ∃ zone, Offset zone offset ∧ cs = zone ++ rest := by
  constructor
  · intro read
    cases cs with
    | nil => cases read
    | cons c cs =>
      rw [readOffset?] at read
      split at read
      next utc =>
        obtain ⟨rfl, rfl⟩ := Prod.mk.inj (Option.some.inj read)
        exact ⟨[c], .utc utc, rfl⟩
      next =>
        simp only [Option.ite_none_right_eq_some, Option.bind_eq_bind, Option.bind_eq_some_iff,
          Prod.exists, takeDigits?_eq_some_iff, expect?_eq_some_iff, Option.some.injEq,
          Prod.mk.injEq] at read
        obtain ⟨sign, h, _, ⟨-, rfl⟩, _, rfl, m, _, ⟨-, rfl⟩, ⟨hh, hm⟩, rfl, rfl⟩ := read
        by_cases east : c = '+'
        · subst east
          exact ⟨_, .east hh hm, by simp⟩
        · rw [if_neg east]
          exact ⟨_, .west (sign.resolve_left east) hh hm, by simp⟩
  · rintro ⟨zone, shown, rfl⟩
    cases shown with
    | utc letter => exact if_pos letter
    | east hh hm => exact readOffset?_signed (.inl rfl) hh hm rest
    | @west c h m sign hh hm =>
      have west : c ≠ '+' := by
        rcases sign with rfl | rfl <;> decide
      exact (readOffset?_signed (.inr sign) hh hm rest).trans (by rw [if_neg west])

theorem Offset.whole_minutes {zone : List Char} {offset : Int} (h : Offset zone offset) :
    offset % 60 = 0 := by
  cases h <;> omega

theorem digitsValue_nine {ds : List Char} (digits : ∀ c ∈ ds, isDigit c) :
    digitsValue (ds.take 9 ++ List.replicate (9 - (ds.take 9).length) '0') =
      digitsValue ds * 10 ^ 9 / 10 ^ ds.length := by
  rw [digitsValue_append, digitsValue_zeros, List.length_replicate, Nat.add_zero]
  rcases Nat.le_total ds.length 9 with short | long
  -- zeros behind the digits and the power of ten say the same
  · have power : 10 ^ 9 = 10 ^ (9 - ds.length) * 10 ^ ds.length := by
      rw [← Nat.pow_add, Nat.sub_add_cancel short]
    rw [List.take_of_length_le short, power, ← Nat.mul_assoc,
      Nat.mul_div_cancel _ (Nat.pow_pos (by decide))]
  · have split := digitsValue_append (ds.take 9) (ds.drop 9)
    have rest := digitsValue_lt fun c mem => digits c (List.drop_subset 9 ds mem)
    have power : 10 ^ ds.length = 10 ^ (ds.drop 9).length * 10 ^ 9 := by
      rw [← Nat.pow_add, List.length_drop, Nat.sub_add_cancel long]
    rw [List.take_append_drop] at split
    rw [List.length_take_of_le long, power, Nat.mul_div_mul_right _ _ (by decide), split,
      Nat.mul_comm (digitsValue _) (10 ^ (ds.drop 9).length), Nat.mul_add_div (Nat.pow_pos (by decide)),
      Nat.div_eq_of_lt rest, Nat.sub_self, Nat.pow_zero, Nat.mul_one, Nat.add_zero]

theorem readFraction?_eq_some {cs rest : List Char} {n : Nat}
    (read : readFraction? cs = some (n, rest)) : ∃ fraction, Fraction fraction n ∧ cs = fraction ++ rest := by
  unfold readFraction? at read
  split at read
  next ds =>
    rw [Option.ite_none_left_eq_some] at read
    obtain ⟨some, same⟩ := read
    obtain ⟨rfl, rfl⟩ := Prod.mk.inj (Option.some.inj same)
    have digits : ∀ c ∈ ds.takeWhile isDigit, isDigit c := fun _ => List.mem_takeWhile_imp
    refine ⟨'.' :: ds.takeWhile isDigit, ?_, by rw [List.cons_append, List.takeWhile_append_dropWhile]⟩
    rw [digitsValue_nine digits]
    exact .digits (mt List.isEmpty_iff.mpr some) digits
  next =>
    obtain ⟨rfl, rfl⟩ := Prod.mk.inj (Option.some.inj read)
    exact ⟨[], .absent, rfl⟩

theorem Fraction.read {fraction rest : List Char} {n : Nat} {c : Char} (shown : Fraction fraction n)
    (point : c ≠ '.') (stop : ¬isDigit c) :
    readFraction? (fraction ++ c :: rest) = some (n, c :: rest) := by
  cases shown with
  | absent =>
    rw [List.nil_append]
    unfold readFraction?
    split
    next same => exact absurd (List.cons.inj same).1 point
    next => rfl
  | @digits ds some digits =>
    have front : (ds ++ c :: rest).takeWhile isDigit = ds := by
      rw [List.takeWhile_append_of_pos digits, List.takeWhile_cons_of_neg stop, List.append_nil]
    have back : (ds ++ c :: rest).dropWhile isDigit = c :: rest := by
      rw [List.dropWhile_append_of_pos digits, List.dropWhile_cons_of_neg stop]
    rw [List.cons_append, readFraction?]
    dsimp only
    rw [front, back, digitsValue_nine digits, if_neg (mt List.isEmpty_iff.mp some)]

theorem Offset.head {zone : List Char} {offset : Int} (shown : Offset zone offset) :
    ∃ c rest, zone = c :: rest ∧ c ≠ '.' ∧ ¬isDigit c := by
  cases shown with
  | utc letter => exact ⟨_, _, rfl, by rcases letter with rfl | rfl <;> decide⟩
  | east => exact ⟨_, _, rfl, by decide⟩
  | west sign => exact ⟨_, _, rfl, by rcases sign with rfl | rfl <;> decide⟩

theorem Fraction.lt {fraction : List Char} {n : Nat} (shown : Fraction fraction n) : n < 1000000000 := by
  cases shown with
  | absent => decide
  | digits some digits =>
    apply Nat.div_lt_of_lt_mul
    exact Nat.mul_lt_mul_of_pos_right (digitsValue_lt digits) (by decide)

def onClock (date : Date) (h m s fraction : Nat) : Instant :=
  ⟨date.toDays * 86400 + (h * 3600 + m * 60 + min s 59), fraction + if s = 60 then 1000000000 else 0⟩

structure Shows (date : Date) (h m s fraction : Nat) : Prop where
  date : date.Valid
  hour : h < 24
  minute : m < 60
  second : s ≤ 60
  fraction : fraction < 1000000000

namespace Shows

variable {date : Date} {h m s fraction : Nat}

theorem date_eq (shows : Shows date h m s fraction) : (onClock date h m s fraction).date = date := by
  obtain ⟨valid, hour, minute, second, -⟩ := shows
  have day : (onClock date h m s fraction).seconds / 86400 = date.toDays := by
    dsimp only [onClock]
    omega
  rw [Instant.date, day, Date.ofDays_toDays valid]

theorem secondOfDay_eq (shows : Shows date h m s fraction) :
    (onClock date h m s fraction).secondOfDay = h * 3600 + m * 60 + min s 59 := by
  obtain ⟨-, hour, minute, second, -⟩ := shows
  dsimp only [onClock, secondOfDay]
  omega

theorem isLeapSecond_iff (shows : Shows date h m s fraction) :
    (onClock date h m s fraction).isLeapSecond ↔ s = 60 := by
  have := shows.fraction
  rw [isLeapSecond, decide_eq_true_iff]
  dsimp only [onClock]
  split <;> omega

theorem nanos_eq (shows : Shows date h m s fraction) :
    (onClock date h m s fraction).nanos % 1000000000 = fraction := by
  have := shows.fraction
  dsimp only [onClock]
  split <;> omega

theorem timeOfDayText_eq (shows : Shows date h m s fraction) :
    (onClock date h m s fraction).timeOfDayText = timeText h m s := by
  have second : (if (onClock date h m s fraction).isLeapSecond then 1 else 0) = if s = 60 then 1 else 0 :=
    if_congr shows.isLeapSecond_iff rfl rfl
  rw [timeOfDayText, shows.secondOfDay_eq, second]
  obtain ⟨-, hour, minute, last, -⟩ := shows
  congr 1
  · omega
  · omega
  · split <;> omega

theorem valid (shows : Shows date h m s fraction) : (onClock date h m s fraction).Valid where
  nanos := by
    have := shows.fraction
    dsimp only [onClock]
    split <;> omega
  leap leap := by
    obtain rfl := shows.isLeapSecond_iff.mp leap
    dsimp only [onClock]
    omega

end Shows

theorem seconds_eq (t : Instant) : t.date.toDays * 86400 + t.secondOfDay = t.seconds := by
  unfold date secondOfDay
  rw [Date.toDays_ofDays]
  omega

theorem Valid.exists_onClock {t : Instant} (valid : t.Valid) :
    ∃ h m s fraction, Shows t.date h m s fraction ∧ t = onClock t.date h m s fraction := by
  have seconds := t.seconds_eq
  have day : t.secondOfDay < 86400 := by
    unfold secondOfDay
    omega
  by_cases leap : t.isLeapSecond
  · have last := valid.leap leap
    have nanos := valid.nanos
    rw [isLeapSecond, decide_eq_true_iff] at leap
    refine ⟨t.secondOfDay / 3600, t.secondOfDay / 60 % 60, 60, t.nanos - 1000000000,
      ⟨Date.ofDays_valid _, by omega, by omega, by omega, by omega⟩,
      congrArg₂ Instant.mk (by omega) (by rw [if_pos rfl]; omega)⟩
  · rw [isLeapSecond, decide_eq_true_iff] at leap
    refine ⟨t.secondOfDay / 3600, t.secondOfDay / 60 % 60, t.secondOfDay % 60, t.nanos,
      ⟨Date.ofDays_valid _, by omega, by omega, by omega, by omega⟩,
      congrArg₂ Instant.mk (by omega) (by rw [if_neg (by omega)]; omega)⟩

theorem shift_neg (t : Instant) (offset : Int) : (t.shift (-offset)).shift offset = t :=
  congrArg₂ Instant.mk (Int.neg_add_cancel_right t.seconds offset) rfl

theorem Valid.shift {t : Instant} (valid : t.Valid) {offset : Int} (minutes : offset % 60 = 0) :
    (t.shift offset).Valid where
  nanos := valid.nanos
  leap leap := by
    have last := valid.leap leap
    dsimp only [Instant.shift]
    omega

def readTime? (date : Date) (cs : List Char) : Option Instant := do
  let (h, m, s, cs) ← readClock? cs
  let (fraction, cs) ← readFraction? cs
  let (offset, cs) ← readOffset? cs
  if cs.isEmpty then some ((onClock date h m s fraction).shift (-offset)) else none

theorem readList?_eq_some_iff {cs : List Char} {t : Instant} : readList? cs = some t ↔
    ∃ date separator rest, readDate? cs = some (date, separator :: rest) ∧ isSeparator separator ∧
      readTime? date rest = some t := by
  unfold readList?
  rcases readDate? cs with _ | ⟨date, _ | ⟨c, rest⟩⟩
  · simp
  · simp
  · by_cases separator : isSeparator c
    · simp [separator, readTime?, onClock, shift, Int.sub_eq_add_neg]
    · simp [separator]

theorem readTime?_eq_some {date : Date} {cs : List Char} {t : Instant} (valid : date.Valid)
    (read : readTime? date cs = some t) : ∃ fraction zone offset, t.Valid ∧ (t.shift offset).date = date ∧
      Fraction fraction (t.nanos % 1000000000) ∧ Offset zone offset ∧
      cs = (t.shift offset).timeOfDayText ++ (fraction ++ zone) := by
  simp only [readTime?, Option.bind_eq_bind, Option.bind_eq_some_iff, Prod.exists,
    readClock?_eq_some_iff, readOffset?_eq_some_iff, Option.ite_none_right_eq_some,
    Option.some.injEq, List.isEmpty_iff] at read
  obtain ⟨h, m, s, _, ⟨⟨hour, minute, second⟩, rfl⟩, n, _, part, offset, _, ⟨zone, east, rfl⟩, rfl, rfl⟩ := read
  obtain ⟨fraction, digits, rfl⟩ := readFraction?_eq_some part
  have shows : Shows date h m s n := ⟨valid, hour, minute, second, digits.lt⟩
  refine ⟨fraction, zone, offset, shows.valid.shift (by have := east.whole_minutes; omega), ?_, ?_, east, ?_⟩
  · rw [shift_neg, shows.date_eq]
  · exact (shows.nanos_eq.symm ▸ digits :)
  · rw [shift_neg, shows.timeOfDayText_eq, List.append_nil]

theorem readTime?_shown {t : Instant} {offset : Int} {fraction zone : List Char} (valid : t.Valid)
    (digits : Fraction fraction (t.nanos % 1000000000)) (east : Offset zone offset) :
    readTime? (t.shift offset).date ((t.shift offset).timeOfDayText ++ (fraction ++ zone)) = some t := by
  obtain ⟨h, m, s, n, shows, same⟩ := (valid.shift east.whole_minutes).exists_onClock
  have nanos : t.nanos % 1000000000 = n := by
    rw [← shows.nanos_eq, ← same]
    rfl
  have text : (t.shift offset).timeOfDayText = timeText h m s := by
    rw [same, shows.timeOfDayText_eq]
  obtain ⟨c, rest, zone_eq, point, stop⟩ := east.head
  have clock : readClock? (timeText h m s ++ (fraction ++ zone)) = some (h, m, s, fraction ++ zone) :=
    readClock?_eq_some_iff.mpr ⟨⟨shows.hour, shows.minute, shows.second⟩, rfl⟩
  have part : readFraction? (fraction ++ zone) = some (n, zone) := by
    rw [zone_eq]
    exact (nanos ▸ digits).read point stop
  have last : readOffset? zone = some (offset, []) :=
    readOffset?_eq_some_iff.mpr ⟨zone, east, (List.append_nil zone).symm⟩
  rw [text, readTime?, clock]
  dsimp only [Option.bind_eq_bind, Option.bind_some]
  rw [part]
  dsimp only [Option.bind_some]
  rw [last]
  dsimp only [Option.bind_some]
  have back := shift_neg t (-offset)
  rw [Int.neg_neg] at back
  rw [← same, back]
  rfl

/-- A text is taken for an instant exactly if it shows that instant on the clocks of some offset. -/
theorem readList?_eq_some_iff_denotes {cs : List Char} {t : Instant} :
    readList? cs = some t ↔ Denotes cs t := by
  rw [readList?_eq_some_iff]
  constructor
  · rintro ⟨date, separator, rest, front, mark, back⟩
    obtain ⟨valid, year, rfl⟩ := readDate?_eq_some_iff.mp front
    obtain ⟨fraction, zone, offset, regular, rfl, digits, east, rfl⟩ := readTime?_eq_some valid back
    exact .shown regular year mark digits east
  · rintro ⟨valid, year, mark, digits, east⟩
    exact ⟨_, _, _, readDate?_eq_some_iff.mpr ⟨Date.ofDays_valid _, year, rfl⟩, mark,
      readTime?_shown valid digits east⟩

theorem fraction_padded {width k : Nat} (some : 0 < width) (bound : k < 10 ^ width) :
    Fraction ('.' :: padded width k) (k * 10 ^ 9 / 10 ^ width) := by
  rw [padded_eq bound]
  have value : digitsValue (lastDigits width k) = k := by
    rw [digitsValue_lastDigits, Nat.mod_eq_of_lt bound]
  have length := lastDigits_length width k
  have ne : lastDigits width k ≠ [] := by
    rw [← List.length_pos_iff, length]
    exact some
  have shown := Fraction.digits ne lastDigits_digits
  rwa [value, length] at shown

/-- No digit of a fraction is lost. -/
theorem fraction_fractionText {n : Nat} (bound : n < 1000000000) : Fraction (fractionText n) n := by
  unfold fractionText
  split
  next zero => exact zero ▸ .absent
  split
  next millis =>
    have shown := fraction_padded (show 0 < 3 by decide) (show n / 1000000 < 10 ^ 3 by omega)
    rwa [show n / 1000000 * 10 ^ 9 / 10 ^ 3 = n by omega] at shown
  split
  next micros =>
    have shown := fraction_padded (show 0 < 6 by decide) (show n / 1000 < 10 ^ 6 by omega)
    rwa [show n / 1000 * 10 ^ 9 / 10 ^ 6 = n by omega] at shown
  next =>
    have shown := fraction_padded (show 0 < 9 by decide) bound
    rwa [show n * 10 ^ 9 / 10 ^ 9 = n by omega] at shown

theorem Offset.zero : Offset "+00:00".toList 0 :=
  .east (h := 0) (m := 0) (by decide) (by decide)

theorem text_denotes {t : Instant} (valid : t.Valid) (year : 0 ≤ t.date.year ∧ t.date.year ≤ 9999) :
    Denotes t.text.toList t := by
  have same : t.shift 0 = t := congrArg₂ Instant.mk (Int.add_zero t.seconds) rfl
  have shown := Denotes.shown (t := t) valid (same.symm ▸ year) (show isSeparator 'T' by rfl)
    (fraction_fractionText (Nat.mod_lt _ (by decide))) Offset.zero
  rw [same] at shown
  have digits : yearText t.date.year = padded 4 t.date.year.toNat := if_pos year
  have written : t.text.toList = dateText t.date ++ 'T' :: (t.timeOfDayText ++
      (fractionText (t.nanos % 1000000000) ++ "+00:00".toList)) := by
    simp only [text, clockText, dateText, timeOfDayText, timeText, digits, String.toList_ofList,
      List.append_assoc, List.cons_append]
  rwa [written]

/-- The text of a year that has not four digits begins with a sign, and no date does. -/
theorem readDate?_sign {y : Int} (far : ¬(0 ≤ y ∧ y ≤ 9999)) (cs : List Char) :
    readDate? (yearText y ++ cs) = none := by
  have sign : ∀ c ds, ¬isDigit c → takeDigits? 4 (c :: ds) = none := by
    intro c ds other
    simp [takeDigits?, other]
  rw [yearText, if_neg far, readDate?, List.cons_append, sign]
  · rfl
  · split <;> decide

theorem read?_text {t : Instant} (valid : t.Valid) :
    read? t.text = if 0 ≤ t.date.year ∧ t.date.year ≤ 9999 then some t else none := by
  split
  next year => exact readList?_eq_some_iff_denotes.mpr (text_denotes valid year)
  next far =>
    have sign := readDate?_sign far
    simp only [read?, readList?, text, clockText, String.toList_ofList, List.append_assoc,
      List.cons_append, sign]
    rfl

theorem ofValue_text_iff {s : String} {t : Instant} : ofValue (.text s) = .ok t ↔ Denotes s.toList t := by
  rw [← readList?_eq_some_iff_denotes, ofValue, ← read?]
  cases read? s with
  | none => exact iff_of_false nofun nofun
  | some u => simp

theorem Denotes.valid {cs : List Char} {t : Instant} (shown : Denotes cs t) : t.Valid := by
  cases shown
  assumption

theorem text_inj {t u : Instant} (valid : t.Valid) (valid' : u.Valid)
    (year : 0 ≤ t.date.year ∧ t.date.year ≤ 9999) (same : t.text = u.text) : t = u := by
  have back := read?_text valid
  rw [if_pos year, same, read?_text valid'] at back
  split at back
  · exact (Option.some.inj back).symm
  · cases back

/-- An instant comes back from its value exactly if its year has four digits; a text is taken exactly for
the instant that it shows on some clocks; and two texts show one instant exactly if the values of what they
are taken for are the same. -/
theorem ofValue_toValue :
    (∀ t : Instant, t.Valid → ofValue t.toValue =
      if 0 ≤ t.date.year ∧ t.date.year ≤ 9999 then .ok t else .error "Invalid DateTime: <chrono>") ∧
    (∀ s t, ofValue (.text s) = .ok t ↔ Denotes s.toList t) ∧
    ∀ s₁ s₂ t₁ t₂, ofValue (.text s₁) = .ok t₁ → ofValue (.text s₂) = .ok t₂ →
      0 ≤ t₁.date.year → t₁.date.year ≤ 9999 →
      ((∃ t, Denotes s₁.toList t ∧ Denotes s₂.toList t) ↔ t₁.toValue = t₂.toValue) := by
  refine ⟨fun t valid => ?_, fun s t => ofValue_text_iff, ?_⟩
  · rw [toValue, ofValue, read?_text valid]
    by_cases year : 0 ≤ t.date.year ∧ t.date.year ≤ 9999
    · rw [if_pos year, if_pos year]
    · rw [if_neg year, if_neg year]
  · intro s₁ s₂ t₁ t₂ read₁ read₂ first last
    have shown₁ := ofValue_text_iff.mp read₁
    have shown₂ := ofValue_text_iff.mp read₂
    constructor
    · rintro ⟨t, one, two⟩
      have same₁ := (ofValue_text_iff.mpr one).symm.trans read₁
      have same₂ := (ofValue_text_iff.mpr two).symm.trans read₂
      rw [← Except.ok.inj same₁, ← Except.ok.inj same₂]
    · intro same
      obtain rfl := text_inj shown₁.valid shown₂.valid ⟨first, last⟩ (Value.text.inj same)
      exact ⟨t₁, shown₁, shown₂⟩

/-- The last second of 2016 was a leap second. Where clocks are two hours ahead, it fell into the next
year. -/
theorem ofValue_leap_second :
    ofValue (toValue ⟨1483228799, 1123456789⟩) = .ok ⟨1483228799, 1123456789⟩ ∧
    (∃ t, Denotes "2016-12-31T23:59:60.1234567899Z".toList t ∧
      Denotes "2017-01-01 01:59:60.123456789+02:00".toList t) := by
  obtain ⟨back, -, same⟩ := ofValue_toValue
  refine ⟨back _ ⟨by decide, by decide⟩, ?_⟩
  exact (same _ _ ⟨1483228799, 1123456789⟩ ⟨1483228799, 1123456789⟩ (by decide +kernel)
    (by decide +kernel) (by decide) (by decide)).mpr rfl

end InfraGraph.Time.Instant

import InfraGraph.Proofs.Text.Digits
import InfraGraph.Proofs.Time.Calendar
import InfraGraph.Time.Instant

/-!
The texts that instants sort by. In the years 0 to 9999 every part of the text has a fixed width, so the text
compares like one number made of all of them. Later instants have a larger number, also across a leap second,
where the second is 60 and the next minute has not begun.
-/

namespace InfraGraph.Time.Instant

open InfraGraph.Text

def micros (t : Instant) : Instant :=
  ⟨t.seconds, t.nanos / 1000 * 1000⟩

/-- One instant is earlier than another. A leap second is later than the second it follows. -/
def Before (a b : Instant) : Prop :=
  a.seconds < b.seconds ∨ a.seconds = b.seconds ∧ a.nanos < b.nanos

instance (a b : Instant) : Decidable (a.Before b) :=
  inferInstanceAs (Decidable (_ ∨ _))

/-- Instants of a year with four digits. Only the last second of a minute is followed by a leap second. -/
structure InFourDigits (t : Instant) : Prop where
  year : 0 ≤ t.date.year ∧ t.date.year ≤ 9999
  nanos : t.nanos < 2000000000
  leap : t.isLeapSecond → t.seconds % 60 = 59

theorem before_trichotomy (a b : Instant) : a.Before b ∨ a = b ∨ b.Before a := by
  obtain ⟨s, n⟩ := a
  obtain ⟨s', n'⟩ := b
  simp only [Before, Instant.mk.injEq]
  omega

def shownSecond (t : Instant) : Nat :=
  t.secondOfDay % 60 + if t.isLeapSecond then 1 else 0

def timeNumber (t : Instant) : Nat :=
  (t.secondOfDay / 3600 * 100 + t.secondOfDay / 60 % 60) * 100 + t.shownSecond

def sortNumber (t : Instant) : Nat :=
  (((((t.date.year.toNat * 100 + t.date.month.toNat) * 100 + t.date.day.toNat) * 100 +
    t.secondOfDay / 3600) * 100 + t.secondOfDay / 60 % 60) * 100 + t.shownSecond) * 1000000 +
    t.nanos % 1000000000 / 1000

variable {a b : Instant}

theorem secondOfDay_lt (t : Instant) : t.secondOfDay < 86400 := by
  unfold secondOfDay
  omega

theorem shownSecond_lt (t : Instant) : t.shownSecond < 100 := by
  unfold shownSecond
  split <;> omega

theorem month_lt (t : Instant) : t.date.month.toNat < 100 := by
  obtain ⟨month, -⟩ := Date.ofDays_mem (t.seconds / 86400)
  unfold date
  omega

theorem day_lt (t : Instant) : t.date.day.toNat < 100 := by
  obtain ⟨-, day⟩ := Date.ofDays_mem (t.seconds / 86400)
  unfold date
  omega

theorem timeNumber_lt (t : Instant) : t.timeNumber < 1000000 := by
  have second := t.shownSecond_lt
  have day := t.secondOfDay_lt
  unfold timeNumber
  omega

theorem sortNumber_eq (ha : a.InFourDigits) : (a.sortNumber : Int) =
    (a.date.number * 1000000 + a.timeNumber) * 1000000 + (a.nanos % 1000000000 / 1000 : Nat) := by
  obtain ⟨month, day⟩ := Date.ofDays_mem (a.seconds / 86400)
  have year := ha.year.1
  have asInt : ∀ x : Int, 0 ≤ x → (x.toNat : Int) = x := fun x => Int.toNat_of_nonneg
  unfold sortNumber Date.number timeNumber
  simp only [Int.natCast_add, Int.natCast_mul, date] at *
  rw [asInt _ (by omega), asInt _ (by omega)]
  omega

theorem comparesAs_yearText (ha : a.InFourDigits) (hb : b.InFourDigits) :
    ComparesAs (yearText a.date.year) (yearText b.date.year) a.date.year.toNat b.date.year.toNat := by
  obtain ⟨lower, upper⟩ := ha.year
  obtain ⟨lower', upper'⟩ := hb.year
  rw [yearText, yearText, if_pos ⟨lower, upper⟩, if_pos ⟨lower', upper'⟩]
  exact comparesAs_padded (show Nat.pow 10 4 = 10000 from rfl) (by omega) (by omega)

theorem comparesAs_sortText (ha : a.InFourDigits) (hb : b.InFourDigits) :
    ComparesAs a.sortText.toList b.sortText.toList a.sortNumber b.sortNumber := by
  have clock := a.secondOfDay_lt
  have clock' := b.secondOfDay_lt
  have month := (comparesAs_yearText ha hb).twoDigits '-' a.month_lt b.month_lt
  have day := month.twoDigits '-' a.day_lt b.day_lt
  have hour := day.twoDigits 'T' (k := a.secondOfDay / 3600) (l := b.secondOfDay / 3600)
    (by omega) (by omega)
  have minute := hour.twoDigits ':' (k := a.secondOfDay / 60 % 60) (l := b.secondOfDay / 60 % 60)
    (by omega) (by omega)
  have second := minute.twoDigits ':' a.shownSecond_lt b.shownSecond_lt
  have micros : ∀ t : Instant, t.nanos % 1000000000 / 1000 < 1000000 := fun t => by omega
  have six := (comparesAs_padded (show Nat.pow 10 6 = 1000000 from rfl) (micros a) (micros b)).cons '.'
  have all := (second.append six (micros a) (micros b)).append_same ['Z']
  rw [sortText, sortText, String.toList_ofList, String.toList_ofList]
  exact all

theorem timeNumber_lt_timeNumber (ha : a.InFourDigits) (later : a.secondOfDay < b.secondOfDay) :
    a.timeNumber < b.timeNumber := by
  have leap : a.isLeapSecond → a.secondOfDay % 60 = 59 := by
    intro h
    have last := ha.leap h
    unfold secondOfDay
    omega
  have hour : ∀ t : Instant, t.secondOfDay / 3600 = t.secondOfDay / 60 / 60 := fun t => by
    rw [Nat.div_div_eq_div_mul]
  have bound : a.shownSecond ≤ 60 := by
    unfold shownSecond
    split <;> omega
  unfold timeNumber
  rw [hour, hour]
  -- a later minute counts for 100, which is more than the 60 of a leap second
  rcases (by omega : a.secondOfDay / 60 < b.secondOfDay / 60 ∨ a.secondOfDay / 60 = b.secondOfDay / 60)
    with minute | minute
  · have hours : a.secondOfDay / 60 / 60 * 100 + a.secondOfDay / 60 % 60 <
        b.secondOfDay / 60 / 60 * 100 + b.secondOfDay / 60 % 60 := by
      generalize a.secondOfDay / 60 = m at *
      generalize b.secondOfDay / 60 = m' at *
      omega
    omega
  · have second : a.shownSecond < b.shownSecond := by
      unfold shownSecond
      split
      · have last := leap ‹_›
        omega
      · omega
    rw [minute]
    omega

theorem sortNumber_lt_of_date (ha : a.InFourDigits) (hb : b.InFourDigits)
    (later : a.date.number < b.date.number) : a.sortNumber < b.sortNumber := by
  have whole := sortNumber_eq ha
  have whole' := sortNumber_eq hb
  have time := a.timeNumber_lt
  omega

theorem sortNumber_lt_of_time (ha : a.InFourDigits) (hb : b.InFourDigits) (date : a.date = b.date)
    (later : a.timeNumber < b.timeNumber) : a.sortNumber < b.sortNumber := by
  have whole := sortNumber_eq ha
  have whole' := sortNumber_eq hb
  rw [date] at whole
  omega

theorem sortNumber_lt_of_fraction (ha : a.InFourDigits) (hb : b.InFourDigits) (same : a.seconds = b.seconds)
    (later : a.nanos / 1000 * 1000 < b.nanos / 1000 * 1000) : a.sortNumber < b.sortNumber := by
  have nanos := ha.nanos
  have nanos' := hb.nanos
  have date : a.date = b.date := congrArg (fun s => Date.ofDays (s / 86400)) same
  have clock : a.secondOfDay = b.secondOfDay := congrArg (fun s => (s % 86400).toNat) same
  by_cases leap : a.isLeapSecond = b.isLeapSecond
  · have time : a.timeNumber = b.timeNumber := by
      rw [timeNumber, timeNumber, shownSecond, shownSecond, clock, leap]
    have fraction : a.nanos % 1000000000 / 1000 < b.nanos % 1000000000 / 1000 := by
      have both : 1000000000 ≤ a.nanos ↔ 1000000000 ≤ b.nanos := decide_eq_decide.mp leap
      omega
    have whole := sortNumber_eq ha
    have whole' := sortNumber_eq hb
    rw [date, time] at whole
    omega
  · have only : a.isLeapSecond = false ∧ b.isLeapSecond = true := by
      unfold isLeapSecond at leap ⊢
      simp only [decide_eq_decide, decide_eq_false_iff_not, decide_eq_true_eq] at leap ⊢
      omega
    refine sortNumber_lt_of_time ha hb date ?_
    simp [timeNumber, shownSecond, clock, only]

theorem sortNumber_lt (ha : a.InFourDigits) (hb : b.InFourDigits) (before : a.micros.Before b.micros) :
    a.sortNumber < b.sortNumber := by
  rcases before with later | ⟨same, later⟩
  · have later : a.seconds < b.seconds := later
    rcases (by omega : a.seconds / 86400 < b.seconds / 86400 ∨ a.seconds / 86400 = b.seconds / 86400)
      with day | day
    · exact sortNumber_lt_of_date ha hb (Date.number_ofDays_lt day)
    · refine sortNumber_lt_of_time ha hb (congrArg Date.ofDays day) (timeNumber_lt_timeNumber ha ?_)
      unfold secondOfDay
      omega
  · exact sortNumber_lt_of_fraction ha hb same later

theorem sortNumber_congr (same : a.micros = b.micros) : a.sortNumber = b.sortNumber := by
  obtain ⟨s, n⟩ := a
  obtain ⟨s', n'⟩ := b
  obtain ⟨rfl, fraction⟩ : s = s' ∧ n / 1000 * 1000 = n' / 1000 * 1000 := Instant.mk.inj same
  have either : 1000000000 ≤ n ↔ 1000000000 ≤ n' := by omega
  have leap : isLeapSecond ⟨s, n⟩ = isLeapSecond ⟨s, n'⟩ := decide_eq_decide.mpr either
  have shown : n % 1000000000 / 1000 = n' % 1000000000 / 1000 := by omega
  have second : shownSecond ⟨s, n⟩ = shownSecond ⟨s, n'⟩ := by
    rw [shownSecond, leap]
    rfl
  rw [sortNumber, second, shown]
  rfl

theorem sortNumber_lt_iff (ha : a.InFourDigits) (hb : b.InFourDigits) :
    a.sortNumber < b.sortNumber ↔ a.micros.Before b.micros := by
  refine ⟨fun less => ?_, sortNumber_lt ha hb⟩
  rcases before_trichotomy a.micros b.micros with before | same | behind
  · exact before
  · exact absurd (sortNumber_congr same) (Nat.ne_of_lt less)
  · exact absurd (sortNumber_lt hb ha behind) (Nat.lt_asymm less)

theorem sortNumber_eq_iff (ha : a.InFourDigits) (hb : b.InFourDigits) :
    a.sortNumber = b.sortNumber ↔ a.micros = b.micros := by
  refine ⟨fun same => ?_, sortNumber_congr⟩
  rcases before_trichotomy a.micros b.micros with before | equal | behind
  · exact absurd same (Nat.ne_of_lt (sortNumber_lt ha hb before))
  · exact equal
  · exact absurd same.symm (Nat.ne_of_lt (sortNumber_lt hb ha behind))

theorem sortText_lt_iff (ha : a.InFourDigits) (hb : b.InFourDigits) :
    a.sortText < b.sortText ↔ a.micros.Before b.micros := by
  rw [String.lt_iff, (comparesAs_sortText ha hb).lt_iff, sortNumber_lt_iff ha hb]

theorem sortText_eq_iff (ha : a.InFourDigits) (hb : b.InFourDigits) :
    a.sortText = b.sortText ↔ a.micros = b.micros := by
  rw [← String.toList_inj, (comparesAs_sortText ha hb).eq_iff, sortNumber_eq_iff ha hb]

end InfraGraph.Time.Instant

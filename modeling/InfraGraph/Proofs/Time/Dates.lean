import InfraGraph.Proofs.Time.Calendar

/-!
Dates and days are two names of one thing. A date is a place in a year that begins in March, counted from its
month and day; so every day has a date that the calendar has, and every such date is the date of its day. The
day after it has the next date.
-/

namespace InfraGraph.Time.Date

def marchYear (d : Date) : Int :=
  if d.month ≤ 2 then d.year - 1 else d.year

def marchMonth (d : Date) : Int :=
  if d.month ≤ 2 then d.month + 9 else d.month - 3

def marchDay (d : Date) : Int :=
  (153 * d.marchMonth + 2) / 5 + d.day - 1

theorem toDays_eq (d : Date) : d.toDays = newYear d.marchYear + d.marchDay - 719468 := by
  have era : ∀ y : Int, y / 400 * 146097 + (y % 400 * 365 + y % 400 / 4 - y % 400 / 100) = newYear y := by
    intro y
    unfold newYear
    omega
  rw [← era]
  show _ / 400 * 146097 + (_ + d.marchDay) - 719468 = _
  simp only [marchYear]
  omega

/-- The length of the year that begins in a March is that of the calendar year in which it ends. -/
theorem newYear_succ (y : Int) :
    newYear (y + 1) = newYear y + if isLeapYear (y + 1) then 366 else 365 := by
  have leap : isLeapYear (y + 1) ↔ (y + 1) % 4 = 0 ∧ ((y + 1) % 100 ≠ 0 ∨ (y + 1) % 400 = 0) := by
    simp [isLeapYear]
  simp only [leap]
  unfold newYear
  split <;> omega

structure InYear (y n : Int) : Prop where
  start : 0 ≤ n
  stop : newYear y + n < newYear (y + 1)

theorem InYear.le {y n : Int} (h : InYear y n) : n ≤ 365 := by
  have length := newYear_succ y
  have stop := h.stop
  split at length <;> omega

theorem InYear.unique {y n y' n' : Int} (h : InYear y n) (h' : InYear y' n')
    (same : newYear y + n = newYear y' + n') : y = y' ∧ n = n' := by
  obtain ⟨start, stop⟩ := h
  obtain ⟨start', stop'⟩ := h'
  rcases Int.lt_trichotomy y y' with earlier | rfl | later
  · have begins := newYear_le (x := y + 1) (y := y') (by omega)
    omega
  · omega
  · have begins := newYear_le (x := y' + 1) (y := y) (by omega)
    omega

theorem marchYear_ofYearDay {y n : Int} (h : InYear y n) :
    (ofYearDay y n).marchYear = y ∧ (ofYearDay y n).marchDay = n := by
  have start := h.start
  have stop := h.le
  unfold ofYearDay marchDay marchMonth marchYear
  dsimp only
  split <;> dsimp only <;> split <;> omega

/-- Every month but February has its place in the years that begin in March, whatever the year. -/
theorem daysInMonth_eq (y : Int) {m : Int} (start : 0 ≤ m) (stop : m ≤ 10) :
    daysInMonth y (if m < 10 then m + 3 else m - 9) = (153 * (m + 1) + 2) / 5 - (153 * m + 2) / 5 := by
  obtain rfl | rfl | rfl | rfl | rfl | rfl | rfl | rfl | rfl | rfl | rfl :
      m = 0 ∨ m = 1 ∨ m = 2 ∨ m = 3 ∨ m = 4 ∨ m = 5 ∨ m = 6 ∨ m = 7 ∨ m = 8 ∨ m = 9 ∨ m = 10 := by
    omega
  all_goals rfl

theorem valid_mk {y m day : Int} :
    Valid ⟨y, m, day⟩ ↔ 1 ≤ m ∧ m ≤ 12 ∧ 1 ≤ day ∧ day ≤ daysInMonth y m :=
  Iff.rfl

theorem daysInMonth_mem (y m : Int) : 28 ≤ daysInMonth y m ∧ daysInMonth y m ≤ 31 := by
  unfold daysInMonth
  split
  · split <;> decide
  · split <;> decide

theorem daysInMonth_february (y : Int) : daysInMonth y 2 = if isLeapYear y then 29 else 28 :=
  rfl

theorem ofYearDay_valid {y n : Int} (h : InYear y n) : (ofYearDay y n).Valid := by
  obtain ⟨⟨first, last⟩, day, -⟩ := monthDay_mem h.start h.le
  by_cases february : (5 * n + 2) / 153 = 11
  · have date : ofYearDay y n = ⟨y + 1, 2, n - 337 + 1⟩ := by
      simp [ofYearDay, february]
    have stop := h.stop
    rw [newYear_succ] at stop
    rw [date, valid_mk, daysInMonth_february]
    split at stop
    next leap =>
      rw [if_pos leap]
      omega
    next plain =>
      rw [if_neg plain]
      omega
  · have table := fun year => daysInMonth_eq year first (by omega)
    unfold ofYearDay
    dsimp only
    split
    next summer =>
      simp only [if_pos summer] at table
      rw [valid_mk, table]
      omega
    next winter =>
      simp only [if_neg winter] at table
      rw [valid_mk, table]
      omega

theorem ofYearDay_march {d : Date} (first : 1 ≤ d.month) (last : d.month ≤ 12)
    (month : (5 * d.marchDay + 2) / 153 = d.marchMonth) : ofYearDay d.marchYear d.marchDay = d := by
  have day : d.marchDay - (153 * d.marchMonth + 2) / 5 + 1 = d.day := by
    unfold marchDay
    omega
  unfold ofYearDay
  dsimp only
  rw [month, day]
  -- the month since March was counted from one side of the new year or the other
  unfold marchMonth marchYear
  by_cases winter : d.month ≤ 2
  · rw [if_pos winter, if_pos winter, if_neg (by omega)]
    rw [Int.sub_add_cancel, Int.add_sub_cancel]
  · rw [if_neg winter, if_neg winter, if_pos (by omega), Int.sub_add_cancel]

theorem daysInMonth_march {d : Date} (first : 1 ≤ d.month) (last : d.month ≤ 12) (other : d.month ≠ 2) :
    (0 ≤ d.marchMonth ∧ d.marchMonth ≤ 10) ∧ daysInMonth d.year d.month =
      (153 * (d.marchMonth + 1) + 2) / 5 - (153 * d.marchMonth + 2) / 5 := by
  have shown : (0 ≤ d.marchMonth ∧ d.marchMonth ≤ 10) ∧
      d.month = if d.marchMonth < 10 then d.marchMonth + 3 else d.marchMonth - 9 := by
    unfold marchMonth
    split <;> split <;> omega
  have table := daysInMonth_eq d.year shown.1.1 shown.1.2
  rw [← shown.2] at table
  exact ⟨shown.1, table⟩

theorem inYear_of_valid {d : Date} (valid : d.Valid) : InYear d.marchYear d.marchDay ∧
    (5 * d.marchDay + 2) / 153 = d.marchMonth := by
  obtain ⟨first, last, start, stop⟩ := valid
  by_cases february : d.month = 2
  · obtain ⟨year, month, day⟩ := d
    subst february
    have y : marchYear ⟨year, 2, day⟩ = year - 1 := rfl
    have n : marchDay ⟨year, 2, day⟩ = 337 + day - 1 := rfl
    have m : marchMonth ⟨year, 2, day⟩ = 11 := rfl
    have length := newYear_succ (year - 1)
    rw [Int.sub_add_cancel] at length
    dsimp only at start stop
    rw [daysInMonth_february] at stop
    have within : newYear (year - 1) + (337 + day - 1) < newYear year := by
      rw [length]
      split
      next leap =>
        rw [if_pos leap] at stop
        omega
      next plain =>
        rw [if_neg plain] at stop
        omega
    rw [y, n, m]
    refine ⟨⟨by omega, by rwa [Int.sub_add_cancel]⟩, ?_⟩
    split at stop <;> omega
  · obtain ⟨bounds, table⟩ := daysInMonth_march first last february
    have length := newYear_succ d.marchYear
    rw [table] at stop
    unfold marchDay
    refine ⟨⟨by omega, ?_⟩, by omega⟩
    split at length <;> omega

theorem ofDays_valid (days : Int) : (ofDays days).Valid := by
  obtain ⟨y, n, date, -, ⟨start, -⟩, stop⟩ := exists_yearDay days
  exact date ▸ ofYearDay_valid ⟨start, stop⟩

theorem toDays_ofDays (days : Int) : (ofDays days).toDays = days := by
  obtain ⟨y, n, date, day, ⟨start, -⟩, stop⟩ := exists_yearDay days
  obtain ⟨year, place⟩ := marchYear_ofYearDay ⟨start, stop⟩
  rw [date, toDays_eq, year, place, ← day, Int.add_sub_cancel]

theorem ofDays_toDays {d : Date} (valid : d.Valid) : ofDays d.toDays = d := by
  obtain ⟨inYear, month⟩ := inYear_of_valid valid
  obtain ⟨y, n, date, day, ⟨start, -⟩, stop⟩ := exists_yearDay d.toDays
  rw [toDays_eq, Int.sub_add_cancel] at day
  obtain ⟨rfl, rfl⟩ := inYear.unique ⟨start, stop⟩ day
  rw [date, ofYearDay_march valid.1 valid.2.1 month]

def tomorrow (d : Date) : Date :=
  if d.day < daysInMonth d.year d.month then ⟨d.year, d.month, d.day + 1⟩
  else if d.month < 12 then ⟨d.year, d.month + 1, 1⟩
  else ⟨d.year + 1, 1, 1⟩

theorem Valid.tomorrow {d : Date} (valid : d.Valid) : d.tomorrow.Valid := by
  obtain ⟨first, last, start, stop⟩ := valid
  unfold Date.tomorrow
  split
  next inside => exact valid_mk.mpr ⟨first, last, by omega, inside⟩
  split
  next early =>
    have length := daysInMonth_mem d.year (d.month + 1)
    exact valid_mk.mpr ⟨by omega, early, Int.le_refl 1, by omega⟩
  next =>
    have length := daysInMonth_mem (d.year + 1) 1
    exact valid_mk.mpr ⟨Int.le_refl 1, by decide, Int.le_refl 1, by omega⟩

theorem toDays_tomorrow {d : Date} (valid : d.Valid) : d.tomorrow.toDays = d.toDays + 1 := by
  obtain ⟨first, last, start, stop⟩ := valid
  rw [toDays_eq, toDays_eq]
  by_cases inside : d.day < daysInMonth d.year d.month
  · have next : d.tomorrow = ⟨d.year, d.month, d.day + 1⟩ := if_pos inside
    have year : d.tomorrow.marchYear = d.marchYear := by rw [next]; rfl
    have place : d.tomorrow.marchDay = (153 * d.marchMonth + 2) / 5 + (d.day + 1) - 1 := by rw [next]; rfl
    rw [year, place, marchDay]
    omega
  · by_cases february : d.month = 2
    · have next : d.tomorrow = ⟨d.year, 3, 1⟩ := by rw [tomorrow, if_neg inside, february]; rfl
      have year : d.marchYear = d.year - 1 := by rw [marchYear, february]; rfl
      have place : d.marchDay = 337 + d.day - 1 := by rw [marchDay, marchMonth, february]; rfl
      have march : newYear d.tomorrow.marchYear + d.tomorrow.marchDay = newYear d.year := by
        rw [next]
        exact Int.add_zero _
      have length := newYear_succ (d.year - 1)
      rw [Int.sub_add_cancel] at length
      rw [february, daysInMonth_february] at stop inside
      rw [march, length, year, place]
      split
      next leap =>
        rw [if_pos leap] at stop inside
        omega
      next plain =>
        rw [if_neg plain] at stop inside
        omega
    · obtain ⟨bounds, table⟩ := daysInMonth_march first last february
      have next : d.tomorrow.marchYear = d.marchYear ∧ d.tomorrow.marchMonth = d.marchMonth + 1 ∧
          d.tomorrow.day = 1 := by
        rw [tomorrow, if_neg inside]
        unfold marchYear marchMonth
        by_cases early : d.month < 12
        · rw [if_pos early]
          dsimp only
          refine ⟨?_, ?_, rfl⟩
          · split <;> split <;> omega
          · split <;> split <;> omega
        · rw [if_neg early]
          dsimp only
          refine ⟨?_, ?_, rfl⟩
          · rw [if_pos (by decide), if_neg (by omega), Int.add_sub_cancel]
          · rw [if_pos (by decide), if_neg (by omega)]
            omega
      rw [next.1, marchDay, next.2.1, next.2.2, marchDay]
      omega

/-- Days are dated one after another, from the first day of 1970 on and back. -/
theorem ofDays_succ (days : Int) : ofDays (days + 1) = (ofDays days).tomorrow := by
  have valid := ofDays_valid days
  rw [← ofDays_toDays valid.tomorrow, toDays_tomorrow valid, toDays_ofDays]

example : ofDays 0 = ⟨1970, 1, 1⟩ := by decide

end InfraGraph.Time.Date

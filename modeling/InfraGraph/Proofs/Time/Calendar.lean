import InfraGraph.Time.Calendar

/-!
The order of dates. A day lies in just one of the years that begin in March, and its month and its day of
the month can be read off its place in that year. So later days have later dates.
-/

namespace InfraGraph.Time.Date

def newYear (y : Int) : Int :=
  365 * y + y / 4 - y / 100 + y / 400

def ofYearDay (y n : Int) : Date :=
  let m := (5 * n + 2) / 153
  let day := n - (153 * m + 2) / 5 + 1
  if m < 10 then ⟨y, m + 3, day⟩ else ⟨y + 1, m - 9, day⟩

/-- The whole centuries, spans of four years and single years that have gone by within four hundred years,
and the days after them. Only a year that ends in a leap day has a day 365. -/
structure Spans (c b a r : Int) : Prop where
  centuries : 0 ≤ c ∧ c ≤ 3
  fours : 0 ≤ b ∧ b ≤ 24
  years : 0 ≤ a ∧ a ≤ 3
  days : 0 ≤ r ∧ r ≤ 365
  leap : r = 365 → a = 3 ∧ (b = 24 → c = 3)

theorem exists_spans {d : Int} (start : 0 ≤ d) (stop : d < 146097) :
    ∃ c b a r, Spans c b a r ∧ d = 36524 * c + 1461 * b + 365 * a + r := by
  -- the days that would begin one span too many: the last of all, and the last of four years
  by_cases last : d = 146096
  · exact ⟨3, 24, 3, 365, by constructor <;> omega, by omega⟩
  · by_cases leap : d % 36524 % 1461 = 1460
    · exact ⟨d / 36524, d % 36524 / 1461, 3, 365, by constructor <;> omega, by omega⟩
    · exact ⟨d / 36524, d % 36524 / 1461, d % 36524 % 1461 / 365, d % 36524 % 1461 % 365,
        by constructor <;> omega, by omega⟩

theorem yearOfEra_eq {c b a r d : Int} (s : Spans c b a r)
    (day : d = 36524 * c + 1461 * b + 365 * a + r) :
    (d - d / 1460 + d / 36524 - d / 146096) / 365 = 100 * c + 4 * b + a := by
  obtain ⟨hc, hb, ha, hr, leap⟩ := s
  -- each quotient counts whole spans, and on a last day it may be one ahead
  have fours : d / 1460 = 25 * c + b + if 24 * c + b + 365 * a + r < 1460 then 0 else 1 := by
    split <;> omega
  have centuries : d / 36524 = c + if d = 146096 then 1 else 0 := by
    split <;> omega
  have eras : d / 146096 = if d = 146096 then 1 else 0 := by
    split <;> omega
  rw [fours, centuries, eras]
  split <;> omega

theorem newYear_eq {c b a : Int} (hc : 0 ≤ c ∧ c ≤ 3) (hb : 0 ≤ b ∧ b ≤ 24) (ha : 0 ≤ a ∧ a ≤ 3)
    (e : Int) : newYear (100 * c + 4 * b + a + e * 400) =
      e * 146097 + 36524 * c + 1461 * b + 365 * a := by
  have fours : (100 * c + 4 * b + a + e * 400) / 4 = 100 * e + 25 * c + b := by omega
  have centuries : (100 * c + 4 * b + a + e * 400) / 100 = 4 * e + c := by omega
  have eras : (100 * c + 4 * b + a + e * 400) / 400 = e := by omega
  rw [newYear, fours, centuries, eras]
  omega

theorem lt_newYear {c b a r : Int} (s : Spans c b a r) (e : Int) :
    e * 146097 + 36524 * c + 1461 * b + 365 * a + r <
      newYear (100 * c + 4 * b + a + e * 400 + 1) := by
  obtain ⟨hc, hb, ha, hr, leap⟩ := s
  by_cases year : a = 3
  · by_cases four : b = 24
    · by_cases century : c = 3
      · have next := newYear_eq (c := 0) (b := 0) (a := 0) (by decide) (by decide) (by decide) (e + 1)
        have same : 100 * 0 + 4 * 0 + 0 + (e + 1) * 400 = 100 * c + 4 * b + a + e * 400 + 1 := by omega
        rw [← same, next]
        omega
      · have next := newYear_eq (c := c + 1) (b := 0) (a := 0) (by omega) (by decide) (by decide) e
        have same : 100 * (c + 1) + 4 * 0 + 0 + e * 400 = 100 * c + 4 * b + a + e * 400 + 1 := by omega
        rw [← same, next]
        omega
    · have next := newYear_eq (b := b + 1) (a := 0) hc (by omega) (by decide) e
      have same : 100 * c + 4 * (b + 1) + 0 + e * 400 = 100 * c + 4 * b + a + e * 400 + 1 := by omega
      rw [← same, next]
      omega
  · have next := newYear_eq (a := a + 1) hc hb (by omega) e
    have same : 100 * c + 4 * b + (a + 1) + e * 400 = 100 * c + 4 * b + a + e * 400 + 1 := by omega
    rw [← same, next]
    omega

/-- The year that a day lies in, and its place in that year. -/
theorem exists_yearDay (days : Int) : ∃ y n, ofDays days = ofYearDay y n ∧
    days + 719468 = newYear y + n ∧ (0 ≤ n ∧ n ≤ 365) ∧ newYear y + n < newYear (y + 1) := by
  have start : 0 ≤ (days + 719468) % 146097 := Int.emod_nonneg _ (by decide)
  have stop : (days + 719468) % 146097 < 146097 := Int.emod_lt_of_pos _ (by decide)
  have whole := Int.mul_ediv_add_emod (days + 719468) 146097
  obtain ⟨c, b, a, r, s, day⟩ := exists_spans start stop
  have year := yearOfEra_eq s day
  have begins := newYear_eq s.centuries s.fours s.years ((days + 719468) / 146097)
  have ends := lt_newYear s ((days + 719468) / 146097)
  have fours : (100 * c + 4 * b + a) / 4 = 25 * c + b := by
    have := s.years
    omega
  have centuries : (100 * c + 4 * b + a) / 100 = c := by
    have := s.fours
    have := s.years
    omega
  have place : (days + 719468) % 146097 - (365 * (100 * c + 4 * b + a) + (25 * c + b) - c) = r := by
    omega
  refine ⟨100 * c + 4 * b + a + (days + 719468) / 146097 * 400, r, ?_, by omega, s.days, by omega⟩
  simp only [ofDays, ofYearDay, year, fours, centuries, place]

theorem newYear_le {x y : Int} (h : x ≤ y) : newYear x ≤ newYear y := by
  unfold newYear
  omega

theorem monthDay_mem {n : Int} (start : 0 ≤ n) (stop : n ≤ 365) :
    (0 ≤ (5 * n + 2) / 153 ∧ (5 * n + 2) / 153 ≤ 11) ∧
      1 ≤ n - (153 * ((5 * n + 2) / 153) + 2) / 5 + 1 ∧
      n - (153 * ((5 * n + 2) / 153) + 2) / 5 + 1 ≤ 31 := by
  omega

def number (d : Date) : Int :=
  (d.year * 100 + d.month) * 100 + d.day

theorem number_ofYearDay_eq (y n : Int) : ∃ m, m = (5 * n + 2) / 153 ∧
    (ofYearDay y n).number = y * 10000 + (if m < 10 then m + 3 else m + 91) * 100 +
      (n - (153 * m + 2) / 5 + 1) := by
  refine ⟨_, rfl, ?_⟩
  unfold ofYearDay number
  dsimp only
  split <;> dsimp only <;> omega

theorem number_ofYearDay_lt {y n n' : Int} (start : 0 ≤ n) (before : n < n') (stop : n' ≤ 365) :
    (ofYearDay y n).number < (ofYearDay y n').number := by
  obtain ⟨-, first, last⟩ := monthDay_mem start (by omega)
  obtain ⟨-, first', last'⟩ := monthDay_mem (by omega) stop
  obtain ⟨m, hm, eq⟩ := number_ofYearDay_eq y n
  obtain ⟨m', hm', eq'⟩ := number_ofYearDay_eq y n'
  rw [← hm] at first last
  rw [← hm'] at first' last'
  rw [eq, eq']
  -- in one month the later day counts, else the later month does
  rcases (by omega : m = m' ∨ m < m') with rfl | later
  · omega
  · clear hm hm'
    split <;> split <;> omega

theorem number_ofYearDay_mem {y n : Int} (start : 0 ≤ n) (stop : n ≤ 365) :
    y * 10000 + 301 ≤ (ofYearDay y n).number ∧ (ofYearDay y n).number ≤ (y + 1) * 10000 + 231 := by
  obtain ⟨month, day⟩ := monthDay_mem start stop
  obtain ⟨m, hm, eq⟩ := number_ofYearDay_eq y n
  rw [← hm] at month day
  rw [eq]
  clear hm
  split <;> omega

theorem ofDays_mem (days : Int) : (1 ≤ (ofDays days).month ∧ (ofDays days).month ≤ 12) ∧
    1 ≤ (ofDays days).day ∧ (ofDays days).day ≤ 31 := by
  obtain ⟨y, n, same, -, ⟨start, stop⟩, -⟩ := exists_yearDay days
  obtain ⟨month, day⟩ := monthDay_mem start stop
  rw [same]
  unfold ofYearDay
  dsimp only
  split <;> dsimp only <;> omega

theorem number_ofDays_lt {days days' : Int} (before : days < days') :
    (ofDays days).number < (ofDays days').number := by
  obtain ⟨y, n, same, day, ⟨start, stop⟩, ends⟩ := exists_yearDay days
  obtain ⟨y', n', same', day', ⟨start', stop'⟩, ends'⟩ := exists_yearDay days'
  rw [same, same']
  rcases Int.lt_trichotomy y y' with earlier | rfl | later
  · have mem := number_ofYearDay_mem (y := y) start stop
    have mem' := number_ofYearDay_mem (y := y') start' stop'
    omega
  · exact number_ofYearDay_lt start (by omega) stop'
  · have begins := newYear_le (x := y' + 1) (y := y) (by omega)
    omega

end InfraGraph.Time.Date

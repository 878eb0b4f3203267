import Mathlib.Order.Interval.Finset.Nat
import Mathlib.Tactic.Linarith

/-!
# The calendar

Days, years and months of the Gregorian calendar by the number of the day, and the time of a clock
that a time zone moves by less than a day.
-/

namespace Calendar

def msPerDay : ℤ := 86400000

/-- The number of the first day of a year. -/
def dayFromYear (year : ℤ) : ℤ :=
  365 * (year - 1970) + (year - 1969) / 4 - (year - 1901) / 100 + (year - 1601) / 400

/-- The year of a day: four hundred years have 146097 days, and the guess is off by one at most. -/
def yearFromDay (day : ℤ) : ℤ :=
  let year := 1970 + 400 * day / 146097
  if day < dayFromYear year then year - 1
  else if dayFromYear (year + 1) ≤ day then year + 1
  else year

/-- The day after the last day of each month but December, from the beginning of the year. -/
def monthEnds (leap : ℤ) : List ℤ :=
  [31, 59 + leap, 90 + leap, 120 + leap, 151 + leap, 181 + leap, 212 + leap, 243 + leap, 273 + leap,
    304 + leap, 334 + leap]

/-- The month of a day, from zero on. -/
def monthFromDay (day : ℤ) : ℕ :=
  let year := yearFromDay day
  let leap := dayFromYear (year + 1) - dayFromYear year - 365
  (monthEnds leap).countP fun last => last ≤ day - dayFromYear year

lemma monthFromDay_lt (day : ℤ) : monthFromDay day < 12 :=
  Nat.lt_succ_of_le List.countP_le_length

/-! ### Years -/

lemma dayFromYear_succ (year : ℤ) :
    dayFromYear year + 365 ≤ dayFromYear (year + 1) ∧
    dayFromYear (year + 1) ≤ dayFromYear year + 366 := by
  unfold dayFromYear
  omega

/-- The years are nearly of one length. -/
lemma dayFromYear_near (year : ℤ) :
    146097 * (year - 1970) - 506 ≤ 400 * dayFromYear year ∧
    400 * dayFromYear year ≤ 146097 * (year - 1970) + 589 := by
  unfold dayFromYear
  omega

lemma yearFromDay_spec (day : ℤ) :
    dayFromYear (yearFromDay day) ≤ day ∧ day < dayFromYear (yearFromDay day + 1) := by
  have hbefore := dayFromYear_near (1970 + 400 * day / 146097 - 1)
  have hafter := dayFromYear_near (1970 + 400 * day / 146097 + 1 + 1)
  simp only [yearFromDay]
  split_ifs with hlow hhigh
  · rw [sub_add_cancel]
    omega
  · omega
  · omega

lemma dayFromYear_le {year year' : ℤ} (h : year ≤ year') : dayFromYear year ≤ dayFromYear year' := by
  obtain ⟨n, rfl⟩ := Int.le.dest h
  induction n with
  | zero => simp
  | succ n ih =>
    have hstep := (dayFromYear_succ (year + n)).1
    have hprev := ih (by omega)
    push_cast
    rw [← add_assoc]
    omega

lemma yearFromDay_eq {year day : ℤ} (hfirst : dayFromYear year ≤ day)
    (hnext : day < dayFromYear (year + 1)) : yearFromDay day = year := by
  obtain ⟨hfirst', hnext'⟩ := yearFromDay_spec day
  rcases lt_trichotomy (yearFromDay day) year with hlt | heq | hgt
  · have hle := dayFromYear_le (Int.add_one_le_of_lt hlt)
    omega
  · exact heq
  · have hle := dayFromYear_le (Int.add_one_le_of_lt hgt)
    omega

/-! ### Local time -/

/-- The clock of a place: the local time at a time, and the time that is meant by a local time. -/
structure Zone where
  localTime : ℤ → ℤ
  utc : ℤ → ℤ
  near (t : ℤ) : |utc t - t| < msPerDay

namespace Zone

variable (zone : Zone)

/-- The time at which a year begins. -/
def startOfYear (year : ℤ) : ℤ := zone.utc (dayFromYear year * msPerDay)

/-- The day, the year and the month that the clock shows. -/
def day (t : ℤ) : ℤ := zone.localTime t / msPerDay

def year (t : ℤ) : ℤ := yearFromDay (zone.day t)

def month (t : ℤ) : ℕ := monthFromDay (zone.day t)

variable {zone}

lemma startOfYear_lt_succ (year : ℤ) : zone.startOfYear year < zone.startOfYear (year + 1) := by
  have hstep := (dayFromYear_succ year).1
  have hhere := abs_lt.mp (zone.near (dayFromYear year * msPerDay))
  have hnext := abs_lt.mp (zone.near (dayFromYear (year + 1) * msPerDay))
  unfold startOfYear
  simp only [msPerDay] at *
  omega

lemma startOfYear_add (year : ℤ) (n : ℕ) : zone.startOfYear year + n ≤ zone.startOfYear (year + n) := by
  induction n with
  | zero => simp
  | succ n ih =>
    have hstep := zone.startOfYear_lt_succ (year + n)
    push_cast
    rw [← add_assoc year]
    omega

lemma startOfYear_le {year year' : ℤ} (h : year ≤ year') :
    zone.startOfYear year ≤ zone.startOfYear year' := by
  obtain ⟨n, rfl⟩ := Int.le.dest h
  have hadd := zone.startOfYear_add year n
  omega

/-- The time is in the year. -/
def InYear (year t : ℤ) : Prop := zone.startOfYear year ≤ t ∧ t < zone.startOfYear (year + 1)

/-- No time is in two years. -/
lemma InYear.unique {year year' t : ℤ} (h : zone.InYear year t) (h' : zone.InYear year' t) :
    year = year' := by
  rcases lt_trichotomy year year' with hlt | heq | hgt
  · exact absurd ((zone.startOfYear_le hlt).trans h'.1) (not_le.mpr h.2)
  · exact heq
  · exact absurd ((zone.startOfYear_le hgt).trans h.1) (not_le.mpr h'.2)

/-- The years follow each other without a gap. -/
theorem exists_inYear {first t : ℤ} (h : zone.startOfYear first ≤ t) :
    ∃ year, first ≤ year ∧ zone.InYear year t := by
  have hafter : ∃ n : ℕ, t < zone.startOfYear (first + n) := by
    refine ⟨(t - zone.startOfYear first + 1).toNat, ?_⟩
    have hadd := zone.startOfYear_add first (t - zone.startOfYear first + 1).toNat
    omega
  classical
  obtain ⟨hlt, hmin⟩ := (Nat.find_eq_iff hafter).mp rfl
  obtain ⟨n, hn⟩ : ∃ n, Nat.find hafter = n + 1 := by
    refine Nat.exists_eq_succ_of_ne_zero fun hzero => ?_
    rw [hzero, Nat.cast_zero, add_zero] at hlt
    exact absurd h (not_le.mpr hlt)
  refine ⟨first + n, by omega, ?_, ?_⟩
  · exact not_lt.mp (hmin n (by omega))
  · rw [hn] at hlt
    rwa [add_assoc]

/-- The clock shows a year from its beginning on, and never goes back to the year before. -/
def Regular (zone : Zone) : Prop :=
  ∀ year t, zone.startOfYear year ≤ t ↔ dayFromYear year * msPerDay ≤ zone.localTime t

/-- Then the clock shows the year that a time is in. -/
lemma year_of_inYear {year t : ℤ} (hregular : zone.Regular) (h : zone.InYear year t) :
    zone.year t = year := by
  have hms : 0 < msPerDay := by decide
  apply yearFromDay_eq
  · exact (Int.le_ediv_iff_mul_le hms).mpr ((hregular year t).mp h.1)
  · apply (Int.ediv_lt_iff_lt_mul hms).mpr
    rw [← not_le, ← hregular, not_le]
    exact h.2

end Zone

end Calendar

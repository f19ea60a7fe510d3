import Mathlib.Data.Nat.Basic
import Mathlib.Tactic.IntervalCases

/-!
# The proleptic Gregorian calendar

`datetime.date.fromordinal` and `toordinal`: days counted from 0001-01-01, and
dates as year, month and day.

There are three groups.

* Years, and the year that holds a day.
* Months, and the month that holds a day of the year.
* `fromDays` and `toDays`, their round trip, and the order of dates.
-/

namespace Calendar

/-! ## Years -/

/-- `_is_leap`. -/
def isLeap (year : Nat) : Bool :=
  year % 4 == 0 && (year % 100 != 0 || year % 400 == 0)

/-- `_days_before_year`, for a year counted from zero. -/
def daysBefore (year : Nat) : Nat :=
  365 * year + year / 4 - year / 100 + year / 400

/-- The length of a year, counted from one. -/
def daysInYear (year : Nat) : Nat :=
  if isLeap year then 366 else 365

/-- The year, counted from zero, that holds a day, and the day of that year.
Four centuries, one century, four years and one year are split off in turn. -/
def splitYear (days : Nat) : Nat × Nat :=
  let n400 := days / 146097
  let d400 := days % 146097
  let n100 := min (d400 / 36524) 3
  let d100 := d400 - 36524 * n100
  let n4 := d100 / 1461
  let d4 := d100 % 1461
  let n1 := min (d4 / 365) 3
  (400 * n400 + 100 * n100 + 4 * n4 + n1, d4 - 365 * n1)

/-- A year, counted from zero, cut the same way. -/
structure Cut (year n400 n100 n4 n1 : Nat) : Prop where
  eq : year = 400 * n400 + 100 * n100 + 4 * n4 + n1
  century : n100 < 4
  four : n4 < 25
  one : n1 < 4

theorem Cut.daysBefore_eq {year n400 n100 n4 n1 : Nat} (h : Cut year n400 n100 n4 n1) :
    daysBefore year = 146097 * n400 + 36524 * n100 + 1461 * n4 + 365 * n1 := by
  obtain ⟨rfl, hc, hf, ho⟩ := h
  have h4 : (400 * n400 + 100 * n100 + 4 * n4 + n1) / 4 = 100 * n400 + 25 * n100 + n4 := by omega
  have h100 : (400 * n400 + 100 * n100 + 4 * n4 + n1) / 100 = 4 * n400 + n100 := by omega
  have h400 : (400 * n400 + 100 * n100 + 4 * n4 + n1) / 400 = n400 := by omega
  rw [daysBefore, h4, h100, h400]
  omega

theorem Cut.isLeap_iff {year n400 n100 n4 n1 : Nat} (h : Cut year n400 n100 n4 n1) :
    isLeap (year + 1) = true ↔ n1 = 3 ∧ (n4 ≠ 24 ∨ n100 = 3) := by
  obtain ⟨rfl, hc, hf, ho⟩ := h
  simp only [isLeap, Bool.and_eq_true, Bool.or_eq_true, beq_iff_eq, bne_iff_ne]
  omega

theorem exists_cut (year : Nat) : ∃ n400 n100 n4 n1, Cut year n400 n100 n4 n1 := by
  refine ⟨year / 400, year % 400 / 100, year % 100 / 4, year % 4, ?_, ?_, ?_, ?_⟩ <;> omega

theorem daysBefore_succ (year : Nat) :
    daysBefore (year + 1) = daysBefore year + daysInYear (year + 1) := by
  obtain ⟨n400, n100, n4, n1, h⟩ := exists_cut year
  have hleap := h.isLeap_iff
  have hnext : ∃ m400 m100 m4 m1, Cut (year + 1) m400 m100 m4 m1 ∧
      146097 * m400 + 36524 * m100 + 1461 * m4 + 365 * m1
        = 146097 * n400 + 36524 * n100 + 1461 * n4 + 365 * n1 +
          if n1 = 3 ∧ (n4 ≠ 24 ∨ n100 = 3) then 366 else 365 := by
    obtain ⟨heq, hc, hf, ho⟩ := h
    by_cases h1 : n1 < 3
    · refine ⟨n400, n100, n4, n1 + 1, ⟨by omega, hc, hf, by omega⟩, ?_⟩
      rw [if_neg (by omega)]
      omega
    · by_cases h4 : n4 < 24
      · refine ⟨n400, n100, n4 + 1, 0, ⟨by omega, hc, by omega, by omega⟩, ?_⟩
        rw [if_pos (by omega)]
        omega
      · by_cases h100 : n100 < 3
        · refine ⟨n400, n100 + 1, 0, 0, ⟨by omega, by omega, by omega, by omega⟩, ?_⟩
          rw [if_neg (by omega)]
          omega
        · refine ⟨n400 + 1, 0, 0, 0, ⟨by omega, by omega, by omega, by omega⟩, ?_⟩
          rw [if_pos (by omega)]
          omega
  obtain ⟨m400, m100, m4, m1, hcut, hdays⟩ := hnext
  rw [hcut.daysBefore_eq, h.daysBefore_eq, hdays, daysInYear]
  simp only [hleap]

theorem daysBefore_mono {year year' : Nat} (h : year < year') :
    daysBefore year + daysInYear (year + 1) ≤ daysBefore year' := by
  obtain ⟨k, rfl⟩ := Nat.exists_eq_add_of_lt h
  induction k with
  | zero =>
    rw [Nat.add_zero, daysBefore_succ]
  | succ k ih =>
    have hstep := daysBefore_succ (year + k + 1)
    have hlast := ih (by omega)
    rw [← Nat.add_assoc year k 1, hstep]
    omega

/-- The split is exact, and the day lies in its year. -/
theorem splitYear_spec (days : Nat) :
    daysBefore (splitYear days).1 + (splitYear days).2 = days ∧
    (splitYear days).2 < daysInYear ((splitYear days).1 + 1) := by
  let d400 := days % 146097
  let n100 := min (d400 / 36524) 3
  let d100 := d400 - 36524 * n100
  let d4 := d100 % 1461
  let n1 := min (d4 / 365) 3
  have h100 : 36524 * n100 ≤ d400 ∧ n100 < 4 ∧ (d100 < 36524 ∨ n100 = 3 ∧ d100 ≤ 36524) := by
    have hlt : d400 < 146097 := Nat.mod_lt _ (by decide)
    simp only [d100, n100]
    omega
  have h4 : 365 * n1 ≤ d4 ∧ n1 < 4 ∧ (d4 - 365 * n1 < 365 ∨ n1 = 3 ∧ d4 - 365 * n1 = 365) := by
    have hlt : d4 < 1461 := Nat.mod_lt _ (by decide)
    simp only [n1]
    omega
  have hcut : Cut (splitYear days).1 (days / 146097) n100 (d100 / 1461) n1 := by
    refine ⟨rfl, h100.2.1, ?_, h4.2.1⟩
    omega
  have hdays : (splitYear days).2 = d4 - 365 * n1 := rfl
  have hleap := hcut.isLeap_iff
  have hsplit : d100 = 1461 * (d100 / 1461) + d4 := (Nat.div_add_mod _ _).symm
  have hcycle : days = 146097 * (days / 146097) + d400 := (Nat.div_add_mod _ _).symm
  have hd100 : d100 = d400 - 36524 * n100 := rfl
  refine ⟨?_, ?_⟩
  · rw [hcut.daysBefore_eq, hdays]
    omega
  · rw [hdays, daysInYear]
    simp only [hleap]
    split <;> omega

/-! ## Months -/

/-- `_DAYS_IN_MONTH`, with the leap day. -/
def daysInMonth (leap : Bool) : Nat → Nat
  | 2 => if leap then 29 else 28
  | 4 => 30
  | 6 => 30
  | 9 => 30
  | 11 => 30
  | _ => 31

/-- `_DAYS_BEFORE_MONTH`, with the leap day. -/
def daysBeforeMonth (leap : Bool) (month : Nat) : Nat :=
  let before := match month with
    | 2 => 31
    | 3 => 59
    | 4 => 90
    | 5 => 120
    | 6 => 151
    | 7 => 181
    | 8 => 212
    | 9 => 243
    | 10 => 273
    | 11 => 304
    | 12 => 334
    | _ => 0
  if leap ∧ 2 < month then before + 1 else before

/-- The month and the day of a day of the year.  The estimate is exact or one
too large. -/
def splitMonth (leap : Bool) (n : Nat) : Nat × Nat :=
  let month := (n + 50) / 32
  if n < daysBeforeMonth leap month then
    (month - 1, n + 1 - daysBeforeMonth leap (month - 1))
  else
    (month, n + 1 - daysBeforeMonth leap month)

/-- A month and a day that the calendar has. -/
structure InYear (leap : Bool) (month day : Nat) : Prop where
  month_pos : 0 < month
  month_le : month ≤ 12
  day_pos : 0 < day
  day_le : day ≤ daysInMonth leap month

theorem splitMonth_spec (leap : Bool) {n : Nat} (h : n < if leap then 366 else 365) :
    InYear leap (splitMonth leap n).1 (splitMonth leap n).2 ∧
    daysBeforeMonth leap (splitMonth leap n).1 + (splitMonth leap n).2 = n + 1 := by
  have hall : ∀ leap, ∀ n < 366, n < (if leap then 366 else 365) →
      (0 < (splitMonth leap n).1 ∧ (splitMonth leap n).1 ≤ 12 ∧ 0 < (splitMonth leap n).2 ∧
        (splitMonth leap n).2 ≤ daysInMonth leap (splitMonth leap n).1) ∧
      daysBeforeMonth leap (splitMonth leap n).1 + (splitMonth leap n).2 = n + 1 := by
    decide +kernel
  have hlt : n < 366 := by
    cases leap
    · exact Nat.lt_trans h (by decide)
    · exact h
  obtain ⟨⟨h1, h2, h3, h4⟩, h5⟩ := hall leap n hlt h
  exact ⟨⟨h1, h2, h3, h4⟩, h5⟩

theorem daysBeforeMonth_mono (leap : Bool) {month month' : Nat} (hpos : 0 < month)
    (h : month < month') (hle : month' ≤ 12) :
    daysBeforeMonth leap month + daysInMonth leap month ≤ daysBeforeMonth leap month' := by
  have hall : ∀ leap, ∀ month' < 13, ∀ month < month', 0 < month →
      daysBeforeMonth leap month + daysInMonth leap month ≤ daysBeforeMonth leap month' := by
    decide
  exact hall leap month' (by omega) month h hpos

theorem daysInMonth_le (leap : Bool) (month : Nat) : daysInMonth leap month ≤ 31 := by
  unfold daysInMonth
  split <;> first | decide | (split <;> decide)

/-! ## Dates -/

/-- A date. -/
structure Date where
  year : Nat
  month : Nat
  day : Nat
deriving DecidableEq, Repr

namespace Date

/-- `date.fromordinal`, for days counted from zero. -/
def fromDays (days : Nat) : Date :=
  let (year, n) := splitYear days
  let (month, day) := splitMonth (isLeap (year + 1)) n
  ⟨year + 1, month, day⟩

/-- `date.toordinal`, for days counted from zero. -/
def toDays (date : Date) : Nat :=
  daysBefore (date.year - 1) + daysBeforeMonth (isLeap date.year) date.month + date.day - 1

/-- The order of dates. -/
def Before (a b : Date) : Prop :=
  a.year < b.year ∨ a.year = b.year ∧ (a.month < b.month ∨ a.month = b.month ∧ a.day < b.day)

/-- The month and the day of a day count lie in its year. -/
theorem inYear_fromDays (days : Nat) :
    InYear (isLeap (fromDays days).year) (fromDays days).month (fromDays days).day :=
  (splitMonth_spec _ (splitYear_spec days).2).1

@[simp] theorem toDays_fromDays (days : Nat) : (fromDays days).toDays = days := by
  obtain ⟨hyear, hin⟩ := splitYear_spec days
  obtain ⟨hm, hmonth⟩ := splitMonth_spec (isLeap ((splitYear days).1 + 1)) hin
  have heq : (fromDays days).toDays = daysBefore (splitYear days).1 +
      daysBeforeMonth (isLeap ((splitYear days).1 + 1))
        (splitMonth (isLeap ((splitYear days).1 + 1)) (splitYear days).2).1 +
      (splitMonth (isLeap ((splitYear days).1 + 1)) (splitYear days).2).2 - 1 := rfl
  omega

/-- A later day has a later date. -/
theorem before_fromDays {days days' : Nat} (h : days < days') :
    (fromDays days).Before (fromDays days') := by
  obtain ⟨hyear, hin⟩ := splitYear_spec days
  obtain ⟨hyear', hin'⟩ := splitYear_spec days'
  have hle : (splitYear days).1 ≤ (splitYear days').1 := by
    by_contra hlt
    have hmono := daysBefore_mono (Nat.lt_of_not_le hlt)
    omega
  rcases Nat.lt_or_eq_of_le hle with hlt | heq
  · exact Or.inl (Nat.succ_lt_succ hlt)
  · refine Or.inr ⟨congrArg (· + 1) heq, ?_⟩
    have hn : (splitYear days).2 < (splitYear days').2 := by
      rw [heq] at hyear
      omega
    have hleap : isLeap ((splitYear days').1 + 1) = isLeap ((splitYear days).1 + 1) := by
      rw [heq]
    change (splitMonth (isLeap ((splitYear days).1 + 1)) (splitYear days).2).1
        < (splitMonth (isLeap ((splitYear days').1 + 1)) (splitYear days').2).1 ∨
      (splitMonth (isLeap ((splitYear days).1 + 1)) (splitYear days).2).1
          = (splitMonth (isLeap ((splitYear days').1 + 1)) (splitYear days').2).1 ∧
        (splitMonth (isLeap ((splitYear days).1 + 1)) (splitYear days).2).2
          < (splitMonth (isLeap ((splitYear days').1 + 1)) (splitYear days').2).2
    obtain ⟨hm, hsum⟩ := splitMonth_spec _ hin
    obtain ⟨hm', hsum'⟩ := splitMonth_spec _ hin'
    rw [hleap] at hm' hsum' ⊢
    generalize isLeap ((splitYear days).1 + 1) = leap at *
    rcases Nat.lt_trichotomy (splitMonth leap (splitYear days).2).1
        (splitMonth leap (splitYear days').2).1 with hlt | hsame | hgt
    · exact Or.inl hlt
    · rw [hsame] at hsum
      exact Or.inr ⟨hsame, by omega⟩
    · have hmono := daysBeforeMonth_mono leap hm'.month_pos hgt hm.month_le
      have hday := hm'.day_le
      have hpos := hm.day_pos
      omega

/-- Up to 9999-12-31 a year has four digits. -/
theorem fromDays_year_le {days : Nat} (h : days < 3652059) : (fromDays days).year ≤ 9999 := by
  obtain ⟨hyear, hin⟩ := splitYear_spec days
  by_contra hgt
  have hlt : 9998 < (splitYear days).1 := by
    have heq : (fromDays days).year = (splitYear days).1 + 1 := rfl
    omega
  have hmono := daysBefore_mono hlt
  have hlast : daysBefore 9998 + daysInYear (9998 + 1) = 3652059 := by decide
  omega

end Date

end Calendar

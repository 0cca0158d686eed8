import RegisterMachine.Log.Calendar

/-!
# The Gregorian calendar

The lengths of months and years, the date that follows a date, and the number of a date, which counts
the days from 1 January 1970 on by adding up lengths.  On valid dates the number grows by one from a
date to the next and orders them as year, month and day do, so a date is known by its number.
-/

namespace RegisterMachine
namespace Log
namespace Date

/-- Every fourth year is a leap year, but of those that are full hundreds only every fourth. -/
def IsLeapYear (year : Int) : Prop :=
  year % 4 = 0 ∧ (year % 100 ≠ 0 ∨ year % 400 = 0)

instance (year : Int) : Decidable (IsLeapYear year) :=
  inferInstanceAs (Decidable (_ ∧ _))

def monthLength (year : Int) : Nat → Nat
  | 2 => if IsLeapYear year then 29 else 28
  | 4 | 6 | 9 | 11 => 30
  | 1 | 3 | 5 | 7 | 8 | 10 | 12 => 31
  | _ => 0

structure Valid (d : Date) : Prop where
  month : 1 ≤ d.month ∧ d.month ≤ 12
  day : 1 ≤ d.day ∧ d.day ≤ monthLength d.year d.month

def next (d : Date) : Date :=
  if d.day < monthLength d.year d.month then { d with day := d.day + 1 }
  else if d.month < 12 then ⟨d.year, d.month + 1, 1⟩
  else ⟨d.year + 1, 1, 1⟩

def Before (d d' : Date) : Prop :=
  d.year < d'.year ∨ d.year = d'.year ∧ (d.month < d'.month ∨ d.month = d'.month ∧ d.day < d'.day)

def daysBefore (year : Int) : Nat → Nat
  | 0 => 0
  | month + 1 => daysBefore year month + monthLength year month

def yearLength (year : Int) : Nat :=
  daysBefore year 13

/-- The days of the first years from 1970 on. -/
def daysOfYears : Nat → Nat
  | 0 => 0
  | count + 1 => daysOfYears count + yearLength (1970 + count)

/-- The days from 1 January 1970 to a date that is not earlier. -/
def number (d : Date) : Nat :=
  daysOfYears (d.year - 1970).toNat + daysBefore d.year d.month + (d.day - 1)

/-! ## Years -/

theorem yearLength_eq (year : Int) : yearLength year = if IsLeapYear year then 366 else 365 := by
  by_cases h : IsLeapYear year <;> simp [yearLength, daysBefore, monthLength, h]

def leapYears (year : Int) : Int :=
  year / 4 - year / 100 + year / 400

theorem leapYears_eq (year : Int) :
    leapYears year = leapYears (year - 1) + if IsLeapYear year then 1 else 0 := by
  unfold leapYears
  by_cases h : IsLeapYear year
  · rw [if_pos h]
    unfold IsLeapYear at h
    omega
  · rw [if_neg h]
    unfold IsLeapYear at h
    omega

theorem daysOfYears_eq (count : Nat) :
    (daysOfYears count : Int) = 365 * count + leapYears (1969 + count) - 477 := by
  induction count with
  | zero => rfl
  | succ count ih =>
    have hleap := leapYears_eq (1970 + count)
    have hprev : (1970 + count : Int) - 1 = 1969 + count := by omega
    have hnext : (1969 + (count + 1 : Nat) : Int) = 1970 + count := by omega
    rw [hprev] at hleap
    rw [daysOfYears, yearLength_eq, hnext, hleap]
    by_cases h : IsLeapYear (1970 + count)
    · rw [if_pos h, if_pos h]
      omega
    · rw [if_neg h, if_neg h]
      omega

theorem daysOfYears_mono {count count' : Nat} (h : count ≤ count') :
    daysOfYears count ≤ daysOfYears count' := by
  induction h with
  | refl => exact Nat.le_refl _
  | step h ih => exact Nat.le_trans ih (Nat.le_add_right _ _)

theorem daysBefore_mono (year : Int) {month month' : Nat} (h : month ≤ month') :
    daysBefore year month ≤ daysBefore year month' := by
  induction h with
  | refl => exact Nat.le_refl _
  | step h ih => exact Nat.le_trans ih (Nat.le_add_right _ _)

theorem number_eq {d : Date} (h : 1970 ≤ d.year) :
    (d.number : Int) = 365 * d.year + leapYears (d.year - 1) - 719527 +
      daysBefore d.year d.month + (d.day - 1 : Nat) := by
  have hcount : (1969 + (d.year - 1970).toNat : Int) = d.year - 1 := by omega
  have hyears := daysOfYears_eq (d.year - 1970).toNat
  rw [hcount] at hyears
  unfold number
  omega

/-! ## Numbers of valid dates -/

section

variable {d d' : Date}

theorem Valid.number_lt_month (h : d.Valid) :
    number d < daysOfYears (d.year - 1970).toNat + daysBefore d.year (d.month + 1) := by
  have hday := h.day
  show _ < _ + (_ + _)
  unfold number
  omega

theorem Valid.number_lt_year (h : d.Valid) (hy : 1970 ≤ d.year) :
    number d < daysOfYears ((d.year - 1970).toNat + 1) := by
  have hlt := h.number_lt_month
  have hmonth := daysBefore_mono d.year (Nat.succ_le_succ h.month.2)
  have hyear : (1970 + (d.year - 1970).toNat : Int) = d.year := by omega
  rw [daysOfYears, hyear]
  exact Nat.lt_of_lt_of_le hlt (Nat.add_le_add_left hmonth _)

theorem Valid.number_lt (h : d.Valid) (hy : 1970 ≤ d.year) (hlt : d.Before d') :
    d.number < d'.number := by
  obtain hyear | ⟨hyear, hmonth | ⟨hmonth, hday⟩⟩ := hlt
  · calc d.number
      _ < daysOfYears ((d.year - 1970).toNat + 1) := h.number_lt_year hy
      _ ≤ daysOfYears (d'.year - 1970).toNat := daysOfYears_mono (by omega)
      _ ≤ d'.number := by
        unfold number
        omega
  · calc d.number
      _ < daysOfYears (d.year - 1970).toNat + daysBefore d.year (d.month + 1) := h.number_lt_month
      _ ≤ daysOfYears (d'.year - 1970).toNat + daysBefore d'.year d'.month := by
        rw [hyear]
        exact Nat.add_le_add_left (daysBefore_mono _ hmonth) _
      _ ≤ d'.number := Nat.le_add_right _ _
  · have hone := h.day.1
    unfold number
    rw [hyear, hmonth]
    omega

theorem before_or_eq_or_before (d d' : Date) : d.Before d' ∨ d = d' ∨ d'.Before d := by
  obtain ⟨year, month, day⟩ := d
  obtain ⟨year', month', day'⟩ := d'
  simp only [Before, Date.mk.injEq]
  omega

theorem Valid.before_iff (h : d.Valid) (hy : 1970 ≤ d.year) (h' : d'.Valid)
    (hy' : 1970 ≤ d'.year) : d.Before d' ↔ d.number < d'.number := by
  refine ⟨fun hlt => h.number_lt hy hlt, fun hlt => ?_⟩
  obtain hb | rfl | hb := before_or_eq_or_before d d'
  · exact hb
  · exact absurd hlt (Nat.lt_irrefl _)
  · exact absurd (h'.number_lt hy' hb) (Nat.lt_asymm hlt)

theorem Valid.eq_of_number (h : d.Valid) (hy : 1970 ≤ d.year) (h' : d'.Valid)
    (hy' : 1970 ≤ d'.year) (he : d.number = d'.number) : d = d' := by
  obtain hb | rfl | hb := before_or_eq_or_before d d'
  · exact absurd he (Nat.ne_of_lt (h.number_lt hy hb))
  · rfl
  · exact absurd he (Nat.ne_of_gt (h'.number_lt hy' hb))

/-! ## The next date -/

theorem one_le_monthLength (year : Int) {month : Nat} (h : 1 ≤ month ∧ month ≤ 12) :
    1 ≤ monthLength year month := by
  unfold monthLength
  grind

theorem Valid.next (h : d.Valid) : d.next.Valid := by
  obtain ⟨hmonth, hday⟩ := h
  unfold Date.next
  split
  · exact ⟨hmonth, by dsimp only; omega⟩
  · split
    · have hm : 1 ≤ d.month + 1 ∧ d.month + 1 ≤ 12 := by omega
      exact ⟨hm, Nat.le_refl 1, one_le_monthLength d.year hm⟩
    · have hm : 1 ≤ 1 ∧ 1 ≤ 12 := by omega
      exact ⟨hm, Nat.le_refl 1, one_le_monthLength (d.year + 1) hm⟩

theorem year_le_next (d : Date) : d.year ≤ d.next.year := by
  unfold next
  split
  · exact Int.le_refl _
  · split
    · exact Int.le_refl _
    · exact Int.le_add_one (Int.le_refl _)

theorem Valid.number_next (h : d.Valid) (hy : 1970 ≤ d.year) : d.next.number = d.number + 1 := by
  obtain ⟨year, month, day⟩ := d
  obtain ⟨hmonth, hday⟩ := h
  dsimp only at hmonth hday hy
  unfold Date.next
  dsimp only
  split
  · unfold number
    dsimp only
    omega
  · split
    · unfold number
      dsimp only
      rw [daysBefore]
      omega
    · -- The last day of December: the month ends the year, and the year ends what is counted.
      have hlast : month = 12 := by omega
      have hcount : (year + 1 - 1970).toNat = (year - 1970).toNat + 1 := by omega
      have hyear : (1970 + (year - 1970).toNat : Int) = year := by omega
      have hjanuary : daysBefore (year + 1) 1 = 0 := rfl
      have hdecember : yearLength year = daysBefore year 12 + monthLength year 12 := rfl
      unfold number
      dsimp only
      rw [hcount, daysOfYears, hyear, hdecember, hjanuary]
      subst hlast
      omega

end

end Date
end Log
end RegisterMachine

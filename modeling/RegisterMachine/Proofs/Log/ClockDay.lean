import Mathlib.Tactic.IntervalCases
import RegisterMachine.Proofs.Log.Calendar

/-!
# The date of a day

`EraDay` places a day in its era by century, group of four years, year and day, with the leap days
where they belong.  Any arithmetic that gives the results which fit into their words leads from such
a place to its date, so it does not matter how overflow is treated, and no operation overflows.
-/

namespace RegisterMachine
namespace Log

namespace Words

variable {m : Type → Type} [Monad m]

/-- The arithmetic gives every result that fits. -/
structure Faithful (w : Words m) : Prop where
  signed : ∀ x, -0x8000000000000000 ≤ x → x < 0x8000000000000000 → w.signed x = pure x
  unsigned : ∀ x, 0 ≤ x → x < 0x100000000 → w.unsigned x = pure x

/-- A result that does not fit is refused. -/
def checked : Words Option where
  signed x := if -0x8000000000000000 ≤ x ∧ x < 0x8000000000000000 then some x else none
  unsigned x := if 0 ≤ x ∧ x < 0x100000000 then some x else none

theorem faithful_checked : checked.Faithful where
  signed _ hlow hhigh := if_pos ⟨hlow, hhigh⟩
  unsigned _ hlow hhigh := if_pos ⟨hlow, hhigh⟩

theorem faithful_wrapping : wrapping.Faithful where
  signed x hlow hhigh := by
    have h : x.bmod 0x10000000000000000 = x := Int.bmod_eq_of_le (by omega) (by omega)
    exact congrArg pure h
  unsigned x hlow hhigh := by
    have h : x % 0x100000000 = x := Int.emod_eq_of_lt hlow hhigh
    exact congrArg pure h

end Words

/-- A day of an era: its century, the four years of the century, the year of these and the day of the
year.  Only the last of four years has a day 365, and in the last four of a century only if the
century ends the era. -/
structure EraDay where
  century : Int
  four : Int
  year : Int
  day : Int
  century_range : 0 ≤ century ∧ century ≤ 3
  four_range : 0 ≤ four ∧ four ≤ 24
  year_range : 0 ≤ year ∧ year ≤ 3
  day_range : 0 ≤ day ∧ day ≤ 365
  leap_day : day = 365 → year = 3 ∧ (four = 24 → century = 3)

namespace EraDay

def dayOfEra (e : EraDay) : Int :=
  36524 * e.century + 1461 * e.four + 365 * e.year + e.day

def yearOfEra (e : EraDay) : Int :=
  100 * e.century + 4 * e.four + e.year

def monthFromMarch (e : EraDay) : Int :=
  (5 * e.day + 2) / 153

def dayOfMonth (e : EraDay) : Int :=
  e.day - (153 * e.monthFromMarch + 2) / 5 + 1

def date (e : EraDay) (era : Int) : Date :=
  if e.monthFromMarch < 10 then
    ⟨400 * era + e.yearOfEra, (e.monthFromMarch + 3).toNat, e.dayOfMonth.toNat⟩
  else ⟨400 * era + e.yearOfEra + 1, (e.monthFromMarch - 9).toNat, e.dayOfMonth.toNat⟩

theorem exists_dayOfEra {n : Int} (h : 0 ≤ n ∧ n < 146097) : ∃ e : EraDay, e.dayOfEra = n := by
  obtain ⟨century, hcentury⟩ : ∃ c, c = min 3 (n / 36524) := ⟨_, rfl⟩
  obtain ⟨inCentury, hin⟩ : ∃ k, k = n - 36524 * century := ⟨_, rfl⟩
  obtain ⟨four, hfour⟩ : ∃ q, q = inCentury / 1461 := ⟨_, rfl⟩
  obtain ⟨inFour, hin'⟩ : ∃ k, k = inCentury - 1461 * four := ⟨_, rfl⟩
  obtain ⟨year, hyear⟩ : ∃ r, r = min 3 (inFour / 365) := ⟨_, rfl⟩
  have hc : 0 ≤ century ∧ century ≤ 3 ∧ 0 ≤ inCentury ∧ inCentury ≤ 36524 ∧
    (inCentury = 36524 → century = 3) := by omega
  have hq : 0 ≤ four ∧ four ≤ 24 ∧ 0 ≤ inFour ∧ inFour ≤ 1460 := by omega
  have hr : 0 ≤ year ∧ year ≤ 3 ∧ 0 ≤ inFour - 365 * year ∧ inFour - 365 * year ≤ 365 ∧
    (inFour - 365 * year = 365 → year = 3) := by omega
  refine ⟨⟨century, four, year, inFour - 365 * year, by omega, by omega, by omega, by omega,
    by omega⟩, ?_⟩
  unfold dayOfEra
  dsimp only
  omega

theorem dayOfEra_range (e : EraDay) : 0 ≤ e.dayOfEra ∧ e.dayOfEra < 146097 := by
  obtain ⟨century, four, year, day, hc, hq, hr, hk, hleap⟩ := e
  unfold dayOfEra
  dsimp only
  omega

theorem monthFromMarch_range (e : EraDay) : 0 ≤ e.monthFromMarch ∧ e.monthFromMarch ≤ 11 := by
  have hday := e.day_range
  unfold monthFromMarch
  omega

theorem dayOfMonth_range (e : EraDay) : 1 ≤ e.dayOfMonth ∧ e.dayOfMonth ≤ 31 := by
  have hday := e.day_range
  unfold dayOfMonth monthFromMarch
  omega

end EraDay

/-! ## The calculation -/

namespace Words.Faithful

variable {m : Type → Type} [Monad m] [LawfulMonad m] {w : Words m}

theorem yearOfEra (hw : w.Faithful) (e : EraDay) : w.yearOfEra e.dayOfEra = pure e.yearOfEra := by
  obtain ⟨century, four, year, day, hc, hq, hr, hk, hleap⟩ := e
  dsimp only [EraDay.dayOfEra, EraDay.yearOfEra]
  generalize hn : 36524 * century + 1461 * four + 365 * year + day = n
  have hfours : n / 1460 = 25 * century + four + (24 * century + four + 365 * year + day) / 1460 := by
    omega
  -- The last day of the era is the only one that would fall into a fifth century.
  have hcenturies : n / 36524 = century + n / 146096 := by
    have hlast : n < 36524 * (century + 1) ∨ n = 146096 ∧ century = 3 := by omega
    omega
  unfold Words.yearOfEra
  rw [hw.unsigned _ (by omega) (by omega), pure_bind, hw.unsigned _ (by omega) (by omega), pure_bind,
    hw.unsigned _ (by omega) (by omega), pure_bind]
  congr 1
  omega

theorem yearStart (hw : w.Faithful) (e : EraDay) :
    w.yearStart e.yearOfEra = pure (e.dayOfEra - e.day) := by
  obtain ⟨century, four, year, day, hc, hq, hr, hk, hleap⟩ := e
  dsimp only [EraDay.dayOfEra, EraDay.yearOfEra]
  have hfours : (100 * century + 4 * four + year) / 4 = 25 * century + four := by omega
  have hcenturies : (100 * century + 4 * four + year) / 100 = century := by omega
  unfold Words.yearStart
  rw [hfours, hcenturies, hw.unsigned _ (by omega) (by omega), pure_bind,
    hw.unsigned _ (by omega) (by omega), pure_bind, hw.unsigned _ (by omega) (by omega)]
  congr 1
  omega

theorem monthFromMarch (hw : w.Faithful) (e : EraDay) :
    w.monthFromMarch e.day = pure e.monthFromMarch := by
  have hday := e.day_range
  unfold Words.monthFromMarch
  rw [hw.unsigned _ (by omega) (by omega), pure_bind, hw.unsigned _ (by omega) (by omega), pure_bind]
  rfl

theorem monthStart (hw : w.Faithful) (e : EraDay) :
    w.monthStart e.monthFromMarch = pure ((153 * e.monthFromMarch + 2) / 5) := by
  have hmonth := e.monthFromMarch_range
  unfold Words.monthStart
  rw [hw.unsigned _ (by omega) (by omega), pure_bind, hw.unsigned _ (by omega) (by omega), pure_bind]

/-- The date of a day that fits into a signed word after the shift to the beginning of an era. -/
theorem date (hw : w.Faithful) (e : EraDay) {days era : Int}
    (hdays : days + 719468 = 146097 * era + e.dayOfEra)
    (hlow : -0x8000000000000000 ≤ days + 719468) (hhigh : days + 719468 < 0x8000000000000000) :
    w.date days = pure (e.date era) := by
  have hday := e.day_range
  have hera := e.dayOfEra_range
  have hmonth := e.monthFromMarch_range
  have hdate := e.dayOfMonth_range
  have hofMonth : e.dayOfMonth = e.day - (153 * e.monthFromMarch + 2) / 5 + 1 := rfl
  have hyear : 0 ≤ e.yearOfEra ∧ e.yearOfEra ≤ 399 := by
    obtain ⟨century, four, year, day, hc, hq, hr, hk, hleap⟩ := e
    dsimp only [EraDay.yearOfEra]
    omega
  have hdiv : (days + 719468) / 146097 = era := by omega
  have hmod : (days + 719468) % 146097 = e.dayOfEra := by omega
  have hstart : e.dayOfEra - (e.dayOfEra - e.day) = e.day := by omega
  unfold Words.date
  rw [hw.signed _ hlow hhigh, pure_bind]
  dsimp only
  rw [hdiv, hmod, hw.yearOfEra, pure_bind, hw.signed _ (by omega) (by omega), pure_bind,
    hw.signed _ (by omega) (by omega), pure_bind, hw.yearStart, pure_bind, hstart,
    hw.unsigned _ (by omega) (by omega), pure_bind, hw.monthFromMarch, pure_bind, hw.monthStart,
    pure_bind, hw.unsigned _ (by omega) (by omega), pure_bind, hw.unsigned _ (by omega) (by omega),
    pure_bind]
  unfold EraDay.date
  by_cases hm : e.monthFromMarch < 10
  · rw [if_pos hm, if_pos hm, hw.unsigned _ (by omega) (by omega), pure_bind, if_neg (by omega),
      pure_bind, Int.add_comm, Int.mul_comm]
    rfl
  · rw [if_neg hm, if_neg hm, hw.unsigned _ (by omega) (by omega), pure_bind, if_pos (by omega),
      hw.signed _ (by omega) (by omega), pure_bind, Int.add_comm e.yearOfEra, Int.mul_comm]
    rfl

end Words.Faithful

/-! ## Months that are counted from March -/

namespace Date

theorem daysBefore_from_march (year : Int) {march : Nat} (h : march < 10) :
    daysBefore year (march + 3) =
      (153 * march + 2) / 5 + 59 + if IsLeapYear year then 1 else 0 := by
  by_cases hl : IsLeapYear year <;> interval_cases march <;> simp [daysBefore, monthLength, hl]

theorem monthLength_from_march (year : Int) {march : Nat} (h : march < 10) :
    (monthLength year (march + 3) : Int) = (153 * (march + 1) + 2) / 5 - (153 * march + 2) / 5 := by
  interval_cases march <;> rfl

end Date

namespace EraDay

theorem leapYears_yearOfEra (e : EraDay) (era : Int) :
    Date.leapYears (400 * era + e.yearOfEra) = 97 * era + 24 * e.century + e.four := by
  obtain ⟨century, four, year, day, hc, hq, hr, hk, hleap⟩ := e
  dsimp only [yearOfEra, Date.leapYears]
  omega

theorem isLeapYear_of_day (e : EraDay) (era : Int) (h : e.day = 365) :
    Date.IsLeapYear (400 * era + e.yearOfEra + 1) := by
  obtain ⟨century, four, year, day, hc, hq, hr, hk, hleap⟩ := e
  have hlast := hleap h
  dsimp only [yearOfEra, Date.IsLeapYear]
  omega

/-- The date of a day, in one of the months from March to December, in January or in February of the
next year. -/
theorem date_cases (e : EraDay) (era : Int) : ∃ day : Nat,
    (∃ march : Nat, march < 10 ∧ e.day = (153 * march + 2) / 5 + day ∧
      e.day < (153 * (march + 1) + 2) / 5 ∧
      e.date era = ⟨400 * era + e.yearOfEra, march + 3, day + 1⟩) ∨
    (e.day = 306 + day ∧ day < 31 ∧ e.date era = ⟨400 * era + e.yearOfEra + 1, 1, day + 1⟩) ∨
    (e.day = 337 + day ∧ day < 29 ∧ e.date era = ⟨400 * era + e.yearOfEra + 1, 2, day + 1⟩) := by
  have hday := e.day_range
  have hmonth := e.monthFromMarch_range
  have hdate := e.dayOfMonth_range
  have hmarch : e.monthFromMarch = (5 * e.day + 2) / 153 := rfl
  have hofMonth : e.dayOfMonth = e.day - (153 * e.monthFromMarch + 2) / 5 + 1 := rfl
  obtain ⟨march, hm⟩ := Int.eq_ofNat_of_zero_le hmonth.1
  obtain ⟨day, hd⟩ := Int.eq_ofNat_of_zero_le (Int.sub_nonneg_of_le hdate.1)
  have hnat : e.dayOfMonth.toNat = day + 1 := by omega
  rw [hm] at hmarch hofMonth
  refine ⟨day, ?_⟩
  unfold date
  rw [hnat, hm]
  obtain hlt | rfl | rfl : march < 10 ∨ march = 10 ∨ march = 11 := by omega
  · rw [if_pos (by omega)]
    exact .inl ⟨march, hlt, by omega, by omega, rfl⟩
  · exact .inr (.inl ⟨by omega, by omega, rfl⟩)
  · exact .inr (.inr ⟨by omega, by omega, rfl⟩)

theorem valid_date (e : EraDay) (era : Int) : (e.date era).Valid := by
  obtain ⟨day, ⟨march, hlt, hday, hend, hdate⟩ | ⟨hday, hlt, hdate⟩ | ⟨hday, hlt, hdate⟩⟩ :=
    e.date_cases era
  · have hlength := Date.monthLength_from_march (400 * era + e.yearOfEra) hlt
    rw [hdate]
    refine ⟨by dsimp only; omega, ?_⟩
    dsimp only
    omega
  · have hlength : Date.monthLength (400 * era + e.yearOfEra + 1) 1 = 31 := rfl
    rw [hdate]
    refine ⟨by dsimp only; omega, ?_⟩
    dsimp only
    omega
  · have hlength : Date.monthLength (400 * era + e.yearOfEra + 1) 2 =
        if Date.IsLeapYear (400 * era + e.yearOfEra + 1) then 29 else 28 := rfl
    rw [hdate]
    refine ⟨by dsimp only; omega, ?_⟩
    dsimp only
    rw [hlength]
    by_cases hl : Date.IsLeapYear (400 * era + e.yearOfEra + 1)
    · rw [if_pos hl]
      omega
    · have hne : e.day ≠ 365 := fun h => hl (e.isLeapYear_of_day era h)
      rw [if_neg hl]
      omega

theorem le_year_date (e : EraDay) {era : Int} (h : 719468 ≤ 146097 * era + e.dayOfEra) :
    1970 ≤ (e.date era).year := by
  have hera := e.dayOfEra_range
  -- The first day of 1970 is day 306 of year 369 in era 4.
  have hyear : 1970 ≤ 400 * era + e.yearOfEra ∨
      1969 = 400 * era + e.yearOfEra ∧ 306 ≤ e.day := by
    obtain ⟨century, four, year, day, hc, hq, hr, hk, hleap⟩ := e
    dsimp only [dayOfEra, yearOfEra] at h hera ⊢
    obtain hlater | rfl : 5 ≤ era ∨ era = 4 := by omega
    · omega
    · have hcentury : century = 3 := by omega
      have hfour : 17 ≤ four := by omega
      omega
  obtain ⟨day, ⟨march, hlt, hday, hend, hdate⟩ | ⟨hday, hlt, hdate⟩ | ⟨hday, hlt, hdate⟩⟩ :=
    e.date_cases era
  all_goals
    rw [hdate]
    dsimp only
    omega

theorem number_date (e : EraDay) {era : Int} (hy : 1970 ≤ (e.date era).year) :
    ((e.date era).number : Int) = 146097 * era + e.dayOfEra - 719468 := by
  have hleaps := e.leapYears_yearOfEra era
  have hera : e.dayOfEra = 36524 * e.century + 1461 * e.four + 365 * e.year + e.day := rfl
  have hyear : e.yearOfEra = 100 * e.century + 4 * e.four + e.year := rfl
  have hprev : 400 * era + e.yearOfEra + 1 - 1 = 400 * era + e.yearOfEra := by omega
  rw [Date.number_eq hy]
  obtain ⟨day, ⟨march, hlt, hday, hend, hdate⟩ | ⟨hday, hlt, hdate⟩ | ⟨hday, hlt, hdate⟩⟩ :=
    e.date_cases era
  · have hbefore := Date.daysBefore_from_march (400 * era + e.yearOfEra) hlt
    have hleap := Date.leapYears_eq (400 * era + e.yearOfEra)
    rw [hdate]
    dsimp only
    rw [hbefore]
    by_cases hl : Date.IsLeapYear (400 * era + e.yearOfEra)
    · rw [if_pos hl] at hleap ⊢
      omega
    · rw [if_neg hl] at hleap ⊢
      omega
  · have hbefore : Date.daysBefore (400 * era + e.yearOfEra + 1) 1 = 0 := rfl
    rw [hdate]
    dsimp only
    rw [hbefore, hprev]
    omega
  · have hbefore : Date.daysBefore (400 * era + e.yearOfEra + 1) 2 = 31 := rfl
    rw [hdate]
    dsimp only
    rw [hbefore, hprev]
    omega

end EraDay

/-! ## Days of the clock -/

namespace Date

/-- The days before the first year that does not fit into 32 bits. -/
def FitsYear (n : UInt64) : Prop :=
  n.toNat < number ⟨0x100000000, 1, 1⟩

theorem number_wide : number ⟨0x100000000, 1, 1⟩ = 1568703873082 := by
  have h := number_eq (d := ⟨0x100000000, 1, 1⟩) (by decide)
  have hbefore : daysBefore 0x100000000 1 = 0 := rfl
  dsimp only at h
  rw [hbefore, leapYears] at h
  omega

theorem toInt_toInt64 {n : UInt64} (h : n.toNat < 0x8000000000000000) :
    n.toInt64.toInt = n.toNat := by
  have hlt : 2 * n.toBitVec.toNat < 2 ^ 64 := by
    show 2 * n.toNat < 2 ^ 64
    omega
  exact BitVec.toInt_eq_toNat_of_lt hlt

/-- A day of the clock that fits after the shift has the valid date of its number, and no operation on
the way to it overflows. -/
theorem ofClockDay_spec {n : UInt64} (h : n.toNat + 719468 < 0x8000000000000000) :
    Words.checked.date n.toInt64.toInt = some (ofClockDay n) ∧ (ofClockDay n).Valid ∧
      1970 ≤ (ofClockDay n).year ∧ (ofClockDay n).number = n.toNat := by
  have hn : n.toInt64.toInt = n.toNat := toInt_toInt64 (by omega)
  obtain ⟨e, he⟩ := EraDay.exists_dayOfEra (n := ((n.toNat : Int) + 719468) % 146097) (by omega)
  have hdays : (n.toNat : Int) + 719468 =
      146097 * (((n.toNat : Int) + 719468) / 146097) + e.dayOfEra := by omega
  generalize ((n.toNat : Int) + 719468) / 146097 = era at hdays
  have hdate {m : Type → Type} [Monad m] [LawfulMonad m] {w : Words m} (hw : w.Faithful) :
      w.date n.toInt64.toInt = pure (e.date era) := by
    rw [hn]
    exact hw.date e hdays (by omega) (by omega)
  have hclock : ofClockDay n = e.date era := congrArg Id.run (hdate Words.faithful_wrapping)
  have hyear : 1970 ≤ (e.date era).year := e.le_year_date (by omega)
  have hnumber := e.number_date hyear
  rw [hclock]
  exact ⟨hdate Words.faithful_checked, e.valid_date era, hyear, by omega⟩

namespace FitsYear

variable {n : UInt64}

theorem toNat_lt (h : FitsYear n) : n.toNat < 1568703873082 := by
  rw [← number_wide]
  exact h

theorem spec (h : FitsYear n) :
    Words.checked.date n.toInt64.toInt = some (ofClockDay n) ∧ (ofClockDay n).Valid ∧
      1970 ≤ (ofClockDay n).year ∧ (ofClockDay n).number = n.toNat := by
  have hlt := h.toNat_lt
  exact ofClockDay_spec (by omega)

theorem shownYear (h : FitsYear n) : ((ofClockDay n).shownYear : Int) = (ofClockDay n).year := by
  obtain ⟨-, hvalid, hyear, hnumber⟩ := h.spec
  have hwide : Valid ⟨0x100000000, 1, 1⟩ := ⟨by decide, by decide⟩
  have hbefore : (ofClockDay n).Before ⟨0x100000000, 1, 1⟩ := by
    rw [hvalid.before_iff hyear hwide (by decide), hnumber]
    exact h
  have hmonth := hvalid.month
  have hday := hvalid.day
  unfold Before at hbefore
  unfold Date.shownYear
  dsimp only at hbefore
  omega

/-- The last of these days is followed by one whose year is shown cut off, but its date is the next
one all the same. -/
theorem next (h : FitsYear n) : ofClockDay (n + 1) = (ofClockDay n).next := by
  have hlt := h.toNat_lt
  have hsucc : (n + 1).toNat = n.toNat + 1 := by
    rw [UInt64.toNat_add, UInt64.toNat_one]
    exact Nat.mod_eq_of_lt (by omega)
  obtain ⟨-, hvalid, hyear, hnumber⟩ := h.spec
  obtain ⟨-, hvalid', hyear', hnumber'⟩ := ofClockDay_spec (n := n + 1) (by omega)
  refine hvalid'.eq_of_number hyear' hvalid.next (Int.le_trans hyear (year_le_next _)) ?_
  rw [hvalid.number_next hyear, hnumber, hnumber', hsucc]

end FitsYear

theorem exists_ofClockDay {d : Date} (h : d.Valid) (hy : 1970 ≤ d.year)
    (hlt : d.year < 0x100000000) : ∃ n, FitsYear n ∧ ofClockDay n = d := by
  have hfits : d.number < number ⟨0x100000000, 1, 1⟩ := h.number_lt hy (.inl hlt)
  have hn : (UInt64.ofNat d.number).toNat = d.number := by
    rw [number_wide] at hfits
    exact UInt64.toNat_ofNat_of_lt (Nat.lt_trans hfits (by decide))
  have hn' : FitsYear (UInt64.ofNat d.number) := by
    unfold FitsYear
    rw [hn]
    exact hfits
  obtain ⟨-, hvalid, hyear, hnumber⟩ := hn'.spec
  exact ⟨_, hn', hvalid.eq_of_number hyear h hy (hnumber.trans hn)⟩

end Date
end Log
end RegisterMachine

/-!
# Calendar dates

The date of the proleptic Gregorian calendar on a day that is counted from 1 January 1970.  It is
calculated in words, of 64 bits with a sign for days and years and of 32 bits without one inside an
era.  What becomes of a result that does not fit is left to the arithmetic (`Words`).
-/

namespace RegisterMachine
namespace Log

structure Date where
  year : Int
  month : Nat
  day : Nat
deriving DecidableEq

/-- An arithmetic of words: what becomes of the exact result of an operation, which need not fit
into 64 bits with a sign, or into 32 bits without one. -/
structure Words (m : Type → Type) where
  signed : Int → m Int
  unsigned : Int → m Int

namespace Words

/-- Results are taken modulo the number of words. -/
def wrapping : Words Id where
  signed x := pure (x.bmod 0x10000000000000000)
  unsigned x := pure (x % 0x100000000)

section

variable {m : Type → Type} [Monad m] (w : Words m)

def yearOfEra (dayOfEra : Int) : m Int := do
  let days ← w.unsigned (dayOfEra - dayOfEra / 1460)
  let days ← w.unsigned (days + dayOfEra / 36524)
  let days ← w.unsigned (days - dayOfEra / 146096)
  return days / 365

def yearStart (yearOfEra : Int) : m Int := do
  let days ← w.unsigned (365 * yearOfEra)
  let days ← w.unsigned (days + yearOfEra / 4)
  w.unsigned (days - yearOfEra / 100)

def monthFromMarch (dayOfYear : Int) : m Int := do
  let fifths ← w.unsigned (5 * dayOfYear)
  let fifths ← w.unsigned (fifths + 2)
  return fifths / 153

def monthStart (monthFromMarch : Int) : m Int := do
  let fifths ← w.unsigned (153 * monthFromMarch)
  let fifths ← w.unsigned (fifths + 2)
  return fifths / 5

/-- The date `days` after 1 January 1970.

Years are taken to begin in March, so that a leap day ends one, and are counted in eras of 400
years, which all have 146097 days. -/
def date (days : Int) : m Date := do
  let shifted ← w.signed (days + 719468)
  let era := shifted / 146097
  let dayOfEra := shifted % 146097
  let yearOfEra ← w.yearOfEra dayOfEra
  let firstYear ← w.signed (era * 400)
  let year ← w.signed (yearOfEra + firstYear)
  let dayOfYear ← w.unsigned (dayOfEra - (← w.yearStart yearOfEra))
  let march ← w.monthFromMarch dayOfYear
  let dayOfMonth ← w.unsigned (dayOfYear - (← w.monthStart march))
  let day ← w.unsigned (dayOfMonth + 1)
  let month ← w.unsigned (if march < 10 then march + 3 else march - 9)
  let year ← if month ≤ 2 then w.signed (year + 1) else pure year
  return { year := year, month := month.toNat, day := day.toNat }

end

end Words

namespace Date

/-- The date on a day of a clock that counts in 64 bits; the count is read as signed. -/
def ofClockDay (days : UInt64) : Date :=
  Id.run (Words.wrapping.date days.toInt64.toInt)

/-- The year as it is shown, in 32 bits. -/
def shownYear (d : Date) : Nat :=
  (d.year % 0x100000000).toNat

end Date
end Log
end RegisterMachine

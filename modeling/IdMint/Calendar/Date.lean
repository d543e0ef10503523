/-!
# Dates of the proleptic Gregorian calendar

A date is named by a year of either sign, a month and a day, and stands for a number of days since
1970-01-01. Both directions count years from March, so that a leap day is the last day of its year
and no case has to ask for it.

`Date.toDays` counts: every year has 365 days, every fourth one more, every hundredth one less and
every four hundredth one more again. `Date.ofDays` divides: it takes whole periods of 400, 100, 4
and 1 years off the day, where the last century of a period and the last year of four are the long
ones. The two are written independently of each other, and `toDays_ofDays` says that they agree.
-/

namespace IdMint.Calendar

/-- A day by its name. The year before year 1 is year 0. -/
structure Date where
  year : Int
  month : Nat
  day : Nat
  deriving DecidableEq, Repr, Inhabited

namespace Date

/-- The days from the first of March of year 0 to 1970-01-01. -/
def marchToEpoch : Int := 719468

/-- The days before a month within a year that begins in March, which is month 0. Any five months
in a row have 153 days. -/
def daysBefore (month : Nat) : Nat := (153 * month + 2) / 5

/-- The days before a year that begins in March, counted from year 0. -/
def daysBeforeYear (year : Int) : Int := 365 * year + year / 4 - year / 100 + year / 400

/-- The day that a date names, counted from 1970-01-01. -/
def toDays (d : Date) : Int :=
  let year := if d.month ≤ 2 then d.year - 1 else d.year
  let month := if d.month ≤ 2 then d.month + 9 else d.month - 3
  daysBeforeYear year + daysBefore month + d.day - 1 - marchToEpoch

def ofYearDay (year : Int) (inYear : Nat) : Date :=
  let month := (5 * inYear + 2) / 153
  let day := inYear - daysBefore month + 1
  if month < 10 then { year, month := month + 3, day }
  else { year := year + 1, month := month - 9, day }

/-- The name of a day counted from 1970-01-01. -/
def ofDays (days : Int) : Date :=
  let sinceMarch := days + marchToEpoch
  let period := sinceMarch / 146097
  let inPeriod := (sinceMarch % 146097).toNat
  let century := min (inPeriod / 36524) 3
  let inCentury := inPeriod - century * 36524
  let quad := inCentury / 1461
  let inQuad := inCentury - quad * 1461
  let single := min (inQuad / 365) 3
  ofYearDay (400 * period + 100 * century + 4 * quad + single) (inQuad - single * 365)

/-! ## Counting undoes dividing -/

theorem toDays_ofYearDay (year : Int) {inYear : Nat} (h : inYear ≤ 365) :
    (ofYearDay year inYear).toDays = daysBeforeYear year + inYear - marchToEpoch := by
  simp only [ofYearDay]
  generalize hm : (5 * inYear + 2) / 153 = m
  have small : m ≤ 11 := by omega
  have before : daysBefore m ≤ inYear := by simp only [daysBefore]; omega
  split
  · simp only [toDays, if_neg (show ¬ m + 3 ≤ 2 by omega), Nat.add_sub_cancel]
    omega
  · simp only [toDays, if_pos (show m - 9 ≤ 2 by omega), Int.add_sub_cancel,
      show m - 9 + 9 = m by omega]
    omega

theorem daysBeforeYear_split (period : Int) {century quad single : Nat} (hc : century ≤ 3)
    (hq : quad ≤ 24) (hs : single ≤ 3) :
    daysBeforeYear (400 * period + 100 * century + 4 * quad + single)
      = 146097 * period + 36524 * century + 1461 * quad + 365 * single := by
  simp only [daysBeforeYear]
  omega

/-- The name of a day names that day. -/
theorem toDays_ofDays (days : Int) : (ofDays days).toDays = days := by
  simp only [ofDays]
  generalize hz : days + marchToEpoch = z
  generalize hn : (z % 146097).toNat = n
  generalize hc : min (n / 36524) 3 = c
  generalize hm : n - c * 36524 = m
  generalize hq : m / 1461 = q
  generalize hr : m - q * 1461 = r
  generalize hs : min (r / 365) 3 = s
  have inPeriod : n < 146097 := by omega
  have century : c ≤ 3 ∧ n = c * 36524 + m ∧ m ≤ 36524 := by omega
  have quad : q ≤ 24 ∧ m = q * 1461 + r ∧ r < 1461 := by omega
  have single : s ≤ 3 ∧ s * 365 ≤ r ∧ r - s * 365 ≤ 365 := by omega
  rw [toDays_ofYearDay _ single.2.2, daysBeforeYear_split _ century.1 quad.1 single.1]
  omega

end Date
end IdMint.Calendar

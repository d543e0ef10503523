import IdMint.Calendar.Date

/-!
# Moments

A moment is a date with a time of day, to the millisecond, in universal time without leap seconds:
every day has 86 400 000 milliseconds. `Moment.ofMs` names the moment so many milliseconds after
the start of 1970, and `Moment.toMs` counts back. The calendar in use ends in both directions, and
`Moment.ofMs?` answers only within it.
-/

namespace IdMint.Calendar

structure Moment where
  date : Date
  hour : Nat
  minute : Nat
  second : Nat
  millisecond : Nat
  deriving DecidableEq, Repr, Inhabited

namespace Moment

def dayMs : Int := 86400000

/-- The moment so many milliseconds after the start of 1970. -/
def ofMs (ms : Int) : Moment :=
  let inDay := (ms % dayMs).toNat
  { date := Date.ofDays (ms / dayMs)
    hour := inDay / 3600000
    minute := inDay / 60000 % 60
    second := inDay / 1000 % 60
    millisecond := inDay % 1000 }

/-- The milliseconds from the start of 1970 to a moment. -/
def toMs (m : Moment) : Int :=
  m.date.toDays * dayMs + m.hour * 3600000 + m.minute * 60000 + m.second * 1000 + m.millisecond

/-- The first and the last year of the calendar in use. -/
def years : Int × Int := (-262143, 262142)

/-- The moment so many milliseconds after the start of 1970, if its year is in the calendar. -/
def ofMs? (ms : Int) : Option Moment :=
  let m := ofMs ms
  if years.1 ≤ m.date.year ∧ m.date.year ≤ years.2 then some m else none

theorem toMs_ofMs (ms : Int) : (ofMs ms).toMs = ms := by
  simp only [ofMs, toMs, dayMs, Date.toDays_ofDays]
  omega

end Moment
end IdMint.Calendar

/-!
# Instants

A point in time finer than a reading: nanoseconds since the start of 1970, of either sign. An epoch
may be given as an instant, and is then the millisecond that the instant lies in.
-/

namespace IdMint

/-- Nanoseconds since the start of 1970. -/
structure Instant where
  ns : Int
  deriving DecidableEq, Repr, Inhabited

namespace Instant

/-- So many nanoseconds after a second. A billion of them or more reach into the next second, as
they do in a leap second. -/
def ofSeconds (seconds : Int) (nanos : Nat) : Instant := { ns := seconds * 1000000000 + nanos }

/-- The millisecond that an instant lies in: the last one that does not come after it, on either
side of 1970. Instants of the calendar are all within reach of a word of milliseconds. -/
def toMs (i : Instant) : Int64 := Int64.ofInt (i.ns / 1000000)

end Instant
end IdMint

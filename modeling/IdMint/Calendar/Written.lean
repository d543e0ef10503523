import IdMint.Calendar.Moment
import IdMint.Text.Numeral

/-!
# Written moments

A moment is written as `YYYY-MM-DDTHH:MM:SSZ`, with a point and three digits before the `Z` when
the milliseconds are not zero. A year from 0 to 9999 has four digits; any other year has a sign
first and at least four digits. `Moment.ofText?` reads such a text back.
-/

namespace IdMint.Calendar

open Text.Numeral (padded readDigits? read?)

namespace Moment

/-! ## Writing -/

/-- A year, with a sign only where four digits are not enough. -/
def yearText (year : Int) : List Char :=
  if 0 ≤ year ∧ year ≤ 9999 then padded 4 year.toNat
  else (if year < 0 then '-' else '+') :: padded 4 year.natAbs

/-- The part of a second, left out when it is zero. -/
def fractionText (millisecond : Nat) : List Char :=
  if millisecond = 0 then [] else '.' :: padded 3 millisecond

def chars (m : Moment) : List Char :=
  yearText m.date.year ++ '-' :: padded 2 m.date.month ++ '-' :: padded 2 m.date.day
    ++ 'T' :: padded 2 m.hour ++ ':' :: padded 2 m.minute ++ ':' :: padded 2 m.second
    ++ fractionText m.millisecond ++ ['Z']

def text (m : Moment) : String := String.ofList m.chars

/-! ## Reading -/

/-- The year that a text begins with, and what follows it. Its first character may be a sign, and
the first hyphen after that ends it. -/
def readYear? : List Char → Option (Int × List Char)
  | [] => none
  | first :: rest =>
    let ends := rest.dropWhile (· ≠ '-')
    (read? (first :: rest.takeWhile (· ≠ '-'))).map fun year => (year, ends)

/-- What stands between the seconds and the end. -/
def readFraction? : List Char → Option Nat
  | ['Z'] => some 0
  | ['.', a, b, c, 'Z'] => readDigits? [a, b, c]
  | _ => none

/-- The moment that a text names. -/
def ofText? (text : List Char) : Option Moment := do
  let (year, rest) ← readYear? text
  match rest with
  | '-' :: o₁ :: o₂ :: '-' :: d₁ :: d₂ :: 'T' :: h₁ :: h₂ :: ':' :: m₁ :: m₂ :: ':' :: s₁ :: s₂
      :: ending =>
    let month ← readDigits? [o₁, o₂]
    let day ← readDigits? [d₁, d₂]
    let hour ← readDigits? [h₁, h₂]
    let minute ← readDigits? [m₁, m₂]
    let second ← readDigits? [s₁, s₂]
    let millisecond ← readFraction? ending
    some { date := { year, month, day }, hour, minute, second, millisecond }
  | _ => none

end Moment
end IdMint.Calendar

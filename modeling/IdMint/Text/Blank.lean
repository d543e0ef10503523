/-!
# Blank characters

The characters that may stand around a value without being part of it: Unicode's `White_Space`
property. It has twenty-five members, and `trim` takes them off both ends of a text. Core's own
class has only ASCII members, so the table is written out here.
-/

namespace IdMint.Text.Blank

/-- Unicode's `White_Space`, as ranges of code points with both ends included. -/
def ranges : List (Nat × Nat) :=
  [(0x0009, 0x000d), (0x0020, 0x0020), (0x0085, 0x0085), (0x00a0, 0x00a0), (0x1680, 0x1680),
   (0x2000, 0x200a), (0x2028, 0x2029), (0x202f, 0x202f), (0x205f, 0x205f), (0x3000, 0x3000)]

def isBlank (c : Char) : Bool := ranges.any fun r => r.1 ≤ c.toNat && c.toNat ≤ r.2

/-- A text without the blanks at its two ends. Blanks between other characters stay. -/
def trim (text : List Char) : List Char :=
  ((text.dropWhile isBlank).reverse.dropWhile isBlank).reverse

end IdMint.Text.Blank

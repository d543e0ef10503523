import IdMint.Checked

/-!
# Signed decimal numerals

A numeral is an optional single sign followed by one or more ASCII digits. Leading zeros carry no
meaning, so one number has many spellings; `write` gives the canonical one, without a plus sign or
a leading zero. `readWord?` also asks that the number fit a signed 64-bit word, which is the only
reason for it to refuse a numeral.
-/

namespace IdMint.Text.Numeral

/-! ## Writing -/

/-- The canonical decimal digits of a natural number. -/
def digits (n : Nat) : List Char := Nat.toDigits 10 n

def write (n : Int) : List Char := if n < 0 then '-' :: digits n.natAbs else digits n.natAbs

/-- The digits of a number, with zeros in front up to a least width. -/
def padded (width n : Nat) : List Char :=
  List.replicate (width - (digits n).length) '0' ++ digits n

/-! ## Reading -/

/-- The value of a nonempty run of ASCII digits. -/
def readDigits? (text : List Char) : Option Nat :=
  if text ≠ [] ∧ text.all Char.isDigit then some (Nat.ofDigitChars 10 text 0) else none

def read? : List Char → Option Int
  | '-' :: rest => (readDigits? rest).map fun n => -(n : Int)
  | '+' :: rest => (readDigits? rest).map fun n => (n : Int)
  | text => (readDigits? text).map fun n => (n : Int)

/-- The word that a numeral spells, if it spells one. -/
def readWord? (text : List Char) : Option Int64 :=
  (read? text).bind fun n => (Checked.word .addition n).toOption

theorem readDigits?_digits (n : Nat) : readDigits? (digits n) = some n := by
  have all : (Nat.toDigits 10 n).all Char.isDigit := by
    rw [List.all_eq_true]
    exact fun c h => Nat.isDigit_of_mem_toDigits (by decide) (by decide) h
  rw [readDigits?, digits, if_pos ⟨Nat.toDigits_ne_nil, all⟩, Nat.ofDigitChars_ten_toDigits]

end IdMint.Text.Numeral

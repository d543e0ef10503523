/-!
# Hexadecimal text of bytes

Each byte is two digits, the high half first. Writing uses lowercase digits; reading takes digits
of either case and nothing else, and only an even number of them. That reading undoes writing is said
beside the definitions; that what is read was written, up to case, is in the theory of these texts.
-/

namespace IdMint.Text.Hex

/-- The sixteen digits in their written form. -/
def digit (n : Nat) : Char :=
  if n < 10 then Char.ofNat ('0'.toNat + n) else Char.ofNat ('a'.toNat + (n - 10))

def value? (c : Char) : Option Nat :=
  if '0' ≤ c ∧ c ≤ '9' then some (c.toNat - '0'.toNat)
  else if 'a' ≤ c ∧ c ≤ 'f' then some (c.toNat - 'a'.toNat + 10)
  else if 'A' ≤ c ∧ c ≤ 'F' then some (c.toNat - 'A'.toNat + 10)
  else none

/-- The two digits of a byte, the high half first. -/
def encodeByte (b : UInt8) : List Char := [digit (b.toNat / 16), digit (b.toNat % 16)]

def encode (bytes : List UInt8) : List Char := bytes.flatMap encodeByte

/-- The bytes that a run of digits spells. A digit without its partner, or any other character, at
any place, spells nothing at all. -/
def decode? : List Char → Option (List UInt8)
  | [] => some []
  | [_] => none
  | high :: low :: rest => do
    let h ← value? high
    let l ← value? low
    let bytes ← decode? rest
    pure (UInt8.ofNat (16 * h + l) :: bytes)

theorem length_encode (bytes : List UInt8) : (encode bytes).length = 2 * bytes.length := by
  induction bytes with
  | nil => rfl
  | cons b rest ih =>
    simp only [encode, List.flatMap_cons, List.length_append, List.length_cons] at *
    simp only [encodeByte, List.length_cons, List.length_nil]
    omega

theorem value?_digit : ∀ n < 16, value? (digit n) = some n := by decide

theorem decode?_encode (bytes : List UInt8) : decode? (encode bytes) = some bytes := by
  induction bytes with
  | nil => rfl
  | cons b rest ih =>
    have hb := b.toNat_lt
    simp only [encode, encodeByte, List.flatMap_cons, List.cons_append, List.nil_append] at *
    simp only [decode?, value?_digit _ (show b.toNat / 16 < 16 by omega),
      value?_digit _ (show b.toNat % 16 < 16 by omega), ih]
    have split : 16 * (b.toNat / 16) + b.toNat % 16 = b.toNat := by omega
    show some (UInt8.ofNat (16 * (b.toNat / 16) + b.toNat % 16) :: rest) = some (b :: rest)
    rw [split, UInt8.ofNat_toNat]

end IdMint.Text.Hex

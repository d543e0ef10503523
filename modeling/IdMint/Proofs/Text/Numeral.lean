import IdMint.Text.Numeral

/-!
# Canonical decimals

A number has many spellings in digits, for zeros may stand in front. One of them is canonical, and
it is the one in which numbers are written. Reading it gives the number back, so different numbers
are never written alike.
-/

namespace IdMint.Text.Numeral

/-- Digits that spell a number, with no zero in front of others. -/
structure Canonical (text : List Char) (n : Nat) : Prop where
  read : readDigits? text = some n
  head : text.head? = some '0' → text = ['0']

theorem Canonical.eq {text : List Char} {m n : Nat} (hm : Canonical text m)
    (hn : Canonical text n) : m = n := by
  have h := hm.read
  rw [hn.read] at h
  exact (Option.some.inj h).symm

/-- Only zero is written with a zero in front. Induction on the number without its last digit,
which has the same first digit. -/
theorem head?_digits : ∀ n : Nat, 0 < n → (digits n).head? ≠ some '0' := by
  intro n
  induction n using Nat.strongRecOn with
  | ind n ih =>
    intro hpos
    by_cases hn : n < 10
    · rw [digits, Nat.toDigits_of_lt_base hn, List.head?_cons]
      have hchar : ∀ n < 10, 0 < n → some (Nat.digitChar n) ≠ some '0' := by decide
      exact hchar n hn hpos
    · have hle : 10 ≤ n := Nat.le_of_not_lt hn
      have hrest := ih (n / 10) (by omega) (by omega)
      rw [digits, Nat.toDigits_of_base_le (by decide) hle, List.head?_append]
      rw [digits] at hrest
      cases hd : Nat.toDigits 10 (n / 10) with
      | nil => exact absurd hd Nat.toDigits_ne_nil
      | cons c rest =>
        rw [hd] at hrest
        exact hrest

theorem canonical_digits (n : Nat) : Canonical (digits n) n where
  read := readDigits?_digits n
  head := fun h => by
    cases n with
    | zero => rfl
    | succ n => exact absurd h (head?_digits (n + 1) (Nat.succ_pos n))

theorem toList_toString (id : UInt64) : (toString id).toList = digits id.toNat :=
  Nat.toList_repr

end IdMint.Text.Numeral

/-!
# Big-endian numbers

A run of bytes read as one number, the most significant byte first, and a number written in a given
count of bytes. Reading undoes writing for every number that has room (`value_bytes`).
-/

namespace IdMint.BigEndian

/-- The number that a run of bytes spells. -/
def value (bytes : List UInt8) : Nat := bytes.foldl (fun n b => 256 * n + b.toNat) 0

/-- The lowest bytes of a number, so many of them, the most significant first. -/
def bytes : Nat → Nat → List UInt8
  | 0, _ => []
  | width + 1, n => bytes width (n / 256) ++ [UInt8.ofNat (n % 256)]

theorem length_bytes (width n : Nat) : (bytes width n).length = width := by
  induction width generalizing n with
  | zero => rfl
  | succ width ih => simp [bytes, ih]

theorem value_concat (init : List UInt8) (b : UInt8) :
    value (init ++ [b]) = 256 * value init + b.toNat := by simp [value]

/-- A number is recovered up to the bytes that there is room for. -/
theorem value_bytes (width n : Nat) : value (bytes width n) = n % Nat.pow 256 width := by
  induction width generalizing n with
  | zero => exact (Nat.mod_one n).symm
  | succ width ih =>
    have split : n % Nat.pow 256 (width + 1) = n % 256 + 256 * (n / 256 % Nat.pow 256 width) := by
      show n % (Nat.pow 256 width * 256) = _
      rw [Nat.mul_comm (Nat.pow 256 width) 256, Nat.mod_mul]
    rw [bytes, value_concat, ih, UInt8.toNat_ofNat', split]
    omega

end IdMint.BigEndian

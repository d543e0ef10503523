import Mathlib.Algebra.Group.Nat.Defs
import Mathlib.Data.List.Induction
import IdMint.BigEndian

/-!
# The order of big-endian numbers

Bytes with the most significant one first are ordered as the numbers that they spell: the first
byte that differs decides both. It takes runs of one length, for a shorter run would be lined up with
the more significant bytes of a longer one.

Both orders are made of pieces. A list compares as its front and then its back (`compare_append`),
and a number as its quotient and then its remainder (`compare_places`). What remains to be said is
that the number of a run has the number of its front for a quotient (`value_append`).
-/

namespace IdMint

/-! ## Comparing piece by piece -/

/-- Fronts of one length decide before the backs are looked at. -/
theorem compare_append {α : Type} [Ord α] {front front' back back' : List α}
    (h : front.length = front'.length) :
    compare (front ++ back) (front' ++ back') =
      (compare front front').then (compare back back') := by
  induction front generalizing front' with
  | nil =>
    obtain rfl : front' = [] := List.length_eq_zero_iff.mp h.symm
    rfl
  | cons x front ih =>
    cases front' with
    | nil => exact nomatch h
    | cons y front' =>
      rw [List.cons_append, List.cons_append, List.compare_cons_cons, List.compare_cons_cons,
        ih (Nat.succ.inj h), Ordering.then_assoc]

/-- Multiples of a base decide before what is left over. -/
theorem compare_places {base m n r r' : Nat} (hr : r < base) (hr' : r' < base) :
    compare (base * m + r) (base * n + r') = (compare m n).then (compare r r') := by
  rcases Nat.lt_trichotomy m n with hlt | rfl | hgt
  · have hnext : base * m + base ≤ base * n := Nat.mul_le_mul_left base hlt
    rw [Nat.compare_eq_lt.mpr hlt, Ordering.lt_then, Nat.compare_eq_lt]
    omega
  · rw [Nat.compare_eq_eq.mpr rfl, Ordering.eq_then]
    simp only [Nat.compare_eq_ite_lt, Nat.add_lt_add_iff_left]
  · have hnext : base * n + base ≤ base * m := Nat.mul_le_mul_left base hgt
    rw [Nat.compare_eq_gt.mpr hgt, Ordering.gt_then, Nat.compare_eq_gt]
    omega

theorem compare_byte (x y : UInt8) : compare x y = compare x.toNat y.toNat := by
  show compareOfLessAndEq x y = compareOfLessAndEq x.toNat y.toNat
  simp only [compareOfLessAndEq, UInt8.lt_iff_toNat_lt, UInt8.toNat_inj]

theorem compare_word (x y : UInt32) : compare x y = compare x.toNat y.toNat := by
  show compareOfLessAndEq x y = compareOfLessAndEq x.toNat y.toNat
  simp only [compareOfLessAndEq, UInt32.lt_iff_toNat_lt, UInt32.toNat_inj]

namespace BigEndian

/-! ## The number of a run -/

theorem value_append (front back : List UInt8) :
    value (front ++ back) = 256 ^ back.length * value front + value back := by
  induction back using List.reverseRecOn with
  | nil => simp [value]
  | append_singleton back b ih =>
    rw [← List.append_assoc, value_concat, value_concat, ih, List.length_append,
      List.length_singleton, Nat.pow_succ, Nat.mul_add, Nat.mul_right_comm, Nat.mul_comm 256,
      Nat.add_assoc, Nat.mul_comm 256]

theorem value_cons (b : UInt8) (rest : List UInt8) :
    value (b :: rest) = 256 ^ rest.length * b.toNat + value rest := by
  have hone : value [b] = b.toNat := Nat.zero_add _
  rw [← hone, ← value_append, List.singleton_append]

theorem value_lt (bytes : List UInt8) : value bytes < 256 ^ bytes.length := by
  induction bytes using List.reverseRecOn with
  | nil => decide
  | append_singleton init b ih =>
    have hb := b.toNat_lt
    rw [value_concat, List.length_append, List.length_singleton, Nat.pow_succ]
    omega

/-- **Runs of one length are ordered as the numbers that they spell.** -/
theorem compare_value {run run' : List UInt8} (h : run.length = run'.length) :
    compare run run' = compare (value run) (value run') := by
  induction run generalizing run' with
  | nil =>
    obtain rfl : run' = [] := List.length_eq_zero_iff.mp h.symm
    rfl
  | cons x rest ih =>
    cases run' with
    | nil => exact nomatch h
    | cons y rest' =>
      have hlength : rest.length = rest'.length := Nat.succ.inj h
      have hrest := value_lt rest
      have hrest' := value_lt rest'
      rw [← hlength] at hrest'
      rw [List.compare_cons_cons, value_cons, value_cons, ← hlength, compare_places hrest hrest',
        ih hlength, compare_byte]

/-- A run is what its number is written as, in as many bytes. -/
theorem bytes_value (run : List UInt8) : bytes run.length (value run) = run := by
  induction run using List.reverseRecOn with
  | nil => rfl
  | append_singleton init b ih =>
    have hb := b.toNat_lt
    have hquotient : (256 * value init + b.toNat) / 256 = value init := by omega
    have hremainder : (256 * value init + b.toNat) % 256 = b.toNat := by omega
    rw [value_concat, List.length_append, List.length_singleton, bytes, hquotient, hremainder, ih,
      UInt8.ofNat_toNat]

end BigEndian
end IdMint

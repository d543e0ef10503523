import Mathlib.Algebra.Group.Int.Defs
import Mathlib.Algebra.Group.Nat.Defs
import IdMint.Layout

/-!
# The number that an id is

`pack` joins its fields with shifts and a bitwise or. Every proof about ids wants arithmetic instead:
the order of ids, and which machine an id came from, are facts about sums and remainders. This file
makes the step from the one to the other, once (`toNat_pack`). The step needs each field to be within
its width, for then fields at their places share no bit (`pairwise_and_eq_zero`), and that is the only
place where the widths matter: a field one bit too wide would still be packed, into its neighbour.

The two marks of the machine stand side by side in an id, so they are treated as one number of ten
bits below the time and above the sequence.

The way back is simpler, for nothing is asked of a word that is taken apart: a field is a quotient
and a remainder (`toNat_field`), whatever the word is.
-/

namespace IdMint
namespace Layout

/-- Shifted fields that do not overlap are joined by adding them. -/
theorem or_shiftLeft_eq_add {time dataCenter worker sequence : Nat} (hd : dataCenter < 2 ^ 5)
    (hw : worker < 2 ^ 5) (hs : sequence < 2 ^ 12) :
    time <<< 22 ||| dataCenter <<< 17 ||| worker <<< 12 ||| sequence
      = time * 2 ^ 22 + (dataCenter * 2 ^ 5 + worker) * 2 ^ 12 + sequence := by
  have hw' : worker <<< 12 + sequence < 2 ^ 17 := by
    rw [Nat.shiftLeft_eq]
    omega
  have hd' : dataCenter <<< 17 + (worker <<< 12 + sequence) < 2 ^ 22 := by
    rw [Nat.shiftLeft_eq]
    omega
  rw [Nat.or_assoc, Nat.or_assoc, ← Nat.shiftLeft_add_eq_or_of_lt hs,
    ← Nat.shiftLeft_add_eq_or_of_lt hw', ← Nat.shiftLeft_add_eq_or_of_lt hd']
  simp only [Nat.shiftLeft_eq]
  omega

/-- Below its place, a number that was moved up has nothing. -/
theorem shiftLeft_and_eq_zero {a b places : Nat} (hb : b < 2 ^ places) :
    a <<< places &&& b = 0 := by
  apply Nat.eq_of_testBit_eq
  intro i
  rw [Nat.testBit_and, Nat.testBit_shiftLeft, Nat.zero_testBit]
  by_cases hi : places ≤ i
  · have hlt : b < 2 ^ i := Nat.lt_of_lt_of_le hb (Nat.pow_le_pow_right (by decide) hi)
    rw [Nat.testBit_lt_two_pow hlt, Bool.and_false]
  · rw [decide_eq_false hi, Bool.false_and, Bool.false_and]

section Placed

variable {field below : UInt64} {places width : Nat}

/-- A field that has room above its place loses no bit on the way there. -/
theorem mul_two_pow_lt (hfield : field.toNat < 2 ^ width) (hroom : places + width ≤ 64) :
    field.toNat * 2 ^ places < 2 ^ 64 :=
  calc field.toNat * 2 ^ places
      < 2 ^ width * 2 ^ places := Nat.mul_lt_mul_of_pos_right hfield (Nat.two_pow_pos places)
    _ = 2 ^ (places + width) := by rw [← Nat.pow_add, Nat.add_comm]
    _ ≤ 2 ^ 64 := Nat.pow_le_pow_right (by decide) hroom

theorem toNat_shiftLeft (hplaces : places < 64) (hfield : field.toNat < 2 ^ width)
    (hroom : places + width ≤ 64) :
    (field <<< UInt64.ofNat places).toNat = field.toNat <<< places := by
  have hword : (UInt64.ofNat places).toNat % 64 = places := by
    rw [UInt64.toNat_ofNat']
    omega
  have hfits : field.toNat <<< places < 2 ^ 64 := by
    rw [Nat.shiftLeft_eq]
    exact mul_two_pow_lt hfield hroom
  rw [UInt64.toNat_shiftLeft, hword, Nat.mod_eq_of_lt hfits]

theorem and_eq_zero (hplaces : places < 64) (hfield : field.toNat < 2 ^ width)
    (hroom : places + width ≤ 64) (hbelow : below.toNat < 2 ^ places) :
    field <<< UInt64.ofNat places &&& below = 0 := by
  rw [← UInt64.toNat_inj, UInt64.toNat_and, toNat_shiftLeft hplaces hfield hroom,
    shiftLeft_and_eq_zero hbelow, UInt64.toNat_zero]

end Placed

/-- **Fields at their places share no bit.** -/
theorem pairwise_and_eq_zero {elapsed dataCenter worker sequence : UInt64}
    (he : elapsed.toNat < 2 ^ 41) (hd : dataCenter.toNat < 2 ^ 5) (hw : worker.toNat < 2 ^ 5)
    (hs : sequence.toNat < 2 ^ 12) :
    [elapsed <<< UInt64.ofNat timeShift, dataCenter <<< UInt64.ofNat dataCenterShift,
      worker <<< UInt64.ofNat workerShift, sequence].Pairwise fun a b => a &&& b = 0 := by
  have hdataCenter : (dataCenter <<< UInt64.ofNat dataCenterShift).toNat < 2 ^ 22 := by
    rw [toNat_shiftLeft (show dataCenterShift < 64 by decide) hd (by decide), Nat.shiftLeft_eq,
      show dataCenterShift = 17 from rfl]
    omega
  have hworker : (worker <<< UInt64.ofNat workerShift).toNat < 2 ^ 17 := by
    rw [toNat_shiftLeft (show workerShift < 64 by decide) hw (by decide), Nat.shiftLeft_eq,
      show workerShift = 12 from rfl]
    omega
  have time {below : UInt64} (h : below.toNat < 2 ^ 22) :
      elapsed <<< UInt64.ofNat timeShift &&& below = 0 :=
    and_eq_zero (by decide) he (by decide) h
  have center {below : UInt64} (h : below.toNat < 2 ^ 17) :
      dataCenter <<< UInt64.ofNat dataCenterShift &&& below = 0 :=
    and_eq_zero (by decide) hd (by decide) h
  simp only [List.pairwise_cons, List.forall_mem_cons, List.not_mem_nil, false_imp_iff,
    implies_true, List.Pairwise.nil, and_true]
  exact ⟨⟨time hdataCenter, time (by omega), time (by omega)⟩, ⟨center hworker, center (by omega)⟩,
    and_eq_zero (by decide) hw (by decide) hs⟩

/-- **An id is the sum of its fields**, each at its place. -/
theorem toNat_pack {elapsed : UInt64} {dataCenter worker : UInt8} {sequence : UInt16}
    (he : elapsed.toNat < 2 ^ 41) (hd : dataCenter.toNat < 2 ^ 5) (hw : worker.toNat < 2 ^ 5)
    (hs : sequence.toNat < 2 ^ 12) :
    (pack elapsed dataCenter worker sequence).toNat
      = elapsed.toNat * 2 ^ 22 + (dataCenter.toNat * 2 ^ 5 + worker.toNat) * 2 ^ 12
          + sequence.toNat := by
  have hdataCenter : dataCenter.toUInt64.toNat < 2 ^ 5 := by rwa [UInt8.toNat_toUInt64]
  have hworker : worker.toUInt64.toNat < 2 ^ 5 := by rwa [UInt8.toNat_toUInt64]
  rw [pack, UInt64.toNat_or, UInt64.toNat_or, UInt64.toNat_or,
    toNat_shiftLeft (show timeShift < 64 by decide) he (by decide),
    toNat_shiftLeft (show dataCenterShift < 64 by decide) hdataCenter (by decide),
    toNat_shiftLeft (show workerShift < 64 by decide) hworker (by decide),
    UInt8.toNat_toUInt64, UInt8.toNat_toUInt64, UInt16.toNat_toUInt64]
  exact or_shiftLeft_eq_add hd hw hs

/-! ## Taking apart -/

theorem toNat_mask {bits : Nat} (h : bits < 64) : (mask bits).toNat = 2 ^ bits - 1 := by
  have hbits : (UInt64.ofNat bits).toNat % 64 = bits := by
    rw [UInt64.toNat_ofNat']
    omega
  have hfits : 2 ^ bits < 2 ^ 64 := Nat.pow_lt_pow_right (by decide) h
  have hone : ((1 : UInt64) <<< UInt64.ofNat bits).toNat = 2 ^ bits := by
    rw [UInt64.toNat_shiftLeft, hbits, UInt64.toNat_one, Nat.one_shiftLeft, Nat.mod_eq_of_lt hfits]
  have hle : (1 : UInt64) ≤ 1 <<< UInt64.ofNat bits := by
    rw [UInt64.le_iff_toNat_le, hone, UInt64.toNat_one]
    exact Nat.one_le_two_pow
  rw [mask, UInt64.toNat_sub_of_le _ _ hle, hone, UInt64.toNat_one]

theorem toNat_field (id : UInt64) {shift bits : Nat} (hs : shift < 64) (hb : bits < 64) :
    (field id shift bits).toNat = id.toNat / 2 ^ shift % 2 ^ bits := by
  have hshift : (UInt64.ofNat shift).toNat % 64 = shift := by
    rw [UInt64.toNat_ofNat']
    omega
  rw [field, UInt64.toNat_and, toNat_mask hb, UInt64.toNat_shiftRight, hshift,
    Nat.shiftRight_eq_div_pow, Nat.and_two_pow_sub_one_eq_mod]

/-- The parts of any word, issued or not, as numbers. -/
theorem toNat_unpack (id : UInt64) :
    (unpack id).msb.toNat = id.toNat / 2 ^ 63 % 2 ^ 1 ∧
      (unpack id).time.toNat = id.toNat / 2 ^ 22 % 2 ^ 41 ∧
      (unpack id).dataCenter.toNat = id.toNat / 2 ^ 17 % 2 ^ 5 ∧
      (unpack id).worker.toNat = id.toNat / 2 ^ 12 % 2 ^ 5 ∧
      (unpack id).sequence.toNat = id.toNat / 2 ^ 0 % 2 ^ 12 := by
  refine ⟨?_, ?_, ?_, ?_, ?_⟩ <;> exact toNat_field id (by decide) (by decide)

/-! ## The time field and the words around it -/

/-- No elapsed time that `timeLimit` lets through is too wide for its field. -/
theorem toInt_timeLimit : timeLimit.toInt = 2 ^ 41 := by decide

/-- A time that is not negative keeps its value as the unsigned word that is packed. -/
theorem toNat_toUInt64_of_nonneg {elapsed : Int64} (h : 0 ≤ elapsed.toInt) :
    (elapsed.toUInt64.toNat : Int) = elapsed.toInt := by
  have hle : 0 ≤ elapsed := Int64.le_iff_toInt_le.mpr h
  rw [Int64.toNat_toUInt64_of_le hle, Int64.toNatClampNeg]
  exact Int.toNat_of_nonneg h

/-- And an unsigned word keeps its value as a signed one while it leaves the sign bit alone. -/
theorem toInt_toInt64 {n : UInt64} (h : n.toNat < 2 ^ 63) : n.toInt64.toInt = n.toNat := by
  have hlt : 2 * n.toBitVec.toNat < 2 ^ 64 := by
    rw [UInt64.toNat_toBitVec]
    omega
  rw [Int64.toInt, UInt64.toBitVec_toInt64, BitVec.toInt_eq_toNat_of_lt hlt, UInt64.toNat_toBitVec]

end Layout
end IdMint

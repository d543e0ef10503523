/-!
# Checked arithmetic on machine words

Times are signed 64-bit words and sequence numbers unsigned 16-bit ones. Every operation here
either has the exact integer as its answer or ends in an `Overflow`: nothing wraps. The exact
answer is what the lemmas state, so a caller reasons about integers and meets words only at the
edges (`sub_eq_ok_iff`, `add_eq_ok_iff`, `increment_eq_ok_iff`).
-/

namespace IdMint

/-- The arithmetic that left its word. -/
inductive Overflow where
  | addition
  | subtraction
  deriving DecidableEq, Repr

def Overflow.message : Overflow → String
  | .addition => "attempt to add with overflow"
  | .subtraction => "attempt to subtract with overflow"

namespace Checked

/-! ## Signed 64-bit words -/

/-- The integers that a signed 64-bit word holds. -/
abbrev Fits (n : Int) : Prop := Int64.minValue.toInt ≤ n ∧ n ≤ Int64.maxValue.toInt

/-- The word for an exact result, or the overflow that the operation ends in. -/
def word (o : Overflow) (n : Int) : Except Overflow Int64 :=
  if h : Fits n then .ok (Int64.ofIntLE n h.1 h.2) else .error o

def add (a b : Int64) : Except Overflow Int64 := word .addition (a.toInt + b.toInt)

def sub (a b : Int64) : Except Overflow Int64 := word .subtraction (a.toInt - b.toInt)

theorem fits_toInt (a : Int64) : Fits a.toInt := ⟨a.minValue_le_toInt, a.toInt_le⟩

theorem fits_iff {n : Int} :
    Fits n ↔ -9223372036854775808 ≤ n ∧ n ≤ 9223372036854775807 := Iff.rfl

/-- Times from 1970 on, and the millisecond before, are never too far apart. -/
theorem fits_sub_of_nonneg {a b : Int64} (ha : -1 ≤ a.toInt) (hb : 0 ≤ b.toInt) :
    Fits (a.toInt - b.toInt) := by
  have hmaxA := fits_iff.mp (fits_toInt a)
  have hmaxB := fits_iff.mp (fits_toInt b)
  rw [fits_iff]
  omega

/-- From such a time, the way back can be too long for a word, and the way forward cannot. -/
theorem not_fits_sub_iff {a b : Int64} (ha : -1 ≤ a.toInt) :
    ¬ Fits (a.toInt - b.toInt) ↔ b.toInt < a.toInt - Int64.maxValue.toInt := by
  have hmaxA := fits_iff.mp (fits_toInt a)
  have hmaxB := fits_iff.mp (fits_toInt b)
  have hmax : Int64.maxValue.toInt = 9223372036854775807 := rfl
  rw [fits_iff, hmax]
  omega

theorem word_eq_ok_iff {o : Overflow} {n : Int} {a : Int64} :
    word o n = .ok a ↔ a.toInt = n := by
  unfold word
  split
  · constructor
    · intro h
      cases h
      simp
    · rintro rfl
      simp
  · rename_i h
    constructor
    · simp
    · rintro rfl
      exact absurd (fits_toInt a) h

theorem word_eq_error_iff {o o' : Overflow} {n : Int} :
    word o n = .error o' ↔ o' = o ∧ ¬ Fits n := by
  unfold word
  split <;> rename_i h
  · exact ⟨fun e => (nomatch e), fun e => absurd h e.2⟩
  · exact ⟨fun e => ⟨(Except.error.inj e).symm, h⟩, fun e => e.1 ▸ rfl⟩

theorem add_eq_ok_iff {a b c : Int64} : add a b = .ok c ↔ c.toInt = a.toInt + b.toInt :=
  word_eq_ok_iff

theorem sub_eq_ok_iff {a b c : Int64} : sub a b = .ok c ↔ c.toInt = a.toInt - b.toInt :=
  word_eq_ok_iff

theorem exists_sub_of_fits {a b : Int64} (h : Fits (a.toInt - b.toInt)) : ∃ c, sub a b = .ok c :=
  ⟨_, dif_pos h⟩

/-! ## Unsigned 16-bit words -/

def increment (n : UInt16) : Except Overflow UInt16 :=
  if n.toNat + 1 < UInt16.size then .ok (n + 1) else .error .addition

theorem increment_eq_ok_iff {n m : UInt16} : increment n = .ok m ↔ m.toNat = n.toNat + 1 := by
  unfold increment
  split
  · rename_i h
    have one : (1 : UInt16).toNat = 1 := rfl
    have size : UInt16.size = 65536 := rfl
    simp only [Except.ok.injEq, ← UInt16.toNat_inj, UInt16.toNat_add]
    omega
  · rename_i h
    have bound := m.toNat_lt_size
    constructor
    · exact fun e => nomatch e
    · exact fun e => absurd (e ▸ bound) h

theorem increment_eq_error_iff {n : UInt16} {o : Overflow} :
    increment n = .error o ↔ o = .addition ∧ UInt16.size ≤ n.toNat + 1 := by
  unfold increment
  split
  · rename_i h
    exact ⟨fun e => (nomatch e), fun e => absurd e.2 (by omega)⟩
  · rename_i h
    exact ⟨fun e => ⟨(Except.error.inj e).symm, by omega⟩, fun e => e.1 ▸ rfl⟩

end Checked
end IdMint

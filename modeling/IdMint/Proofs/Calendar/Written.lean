import Mathlib.Algebra.Group.Nat.Defs
import Mathlib.Data.List.Basic
import IdMint.Calendar.Written
import IdMint.Proofs.Calendar.Moment
import IdMint.Proofs.Text.Spelling

/-!
# The one text of a moment

The format of a written moment is given here part by part, as what the text has to look like
(`Moment.Form`), without a word on how it is made. A moment has exactly one text of this form, and
it is the one that is written (`Moment.form_iff`). The text is read back as the moment
(`Moment.ofText?_chars`), so different moments never share a text.

The year is the only part without a width of its own, for it may have any number of digits. Its end
is still plain to see: a sign stands nowhere but in front, so the first hyphen after the first
character is behind the year.
-/

namespace IdMint

/-! ## Digits in a field -/

namespace Text.Numeral

/-- Digits of a number, in a field of so many places. -/
structure Field (width n : Nat) (text : List Char) : Prop where
  length : text.length = width
  value : readDigits? text = some n

theorem length_padded {width n : Nat} (hpos : 0 < width) (h : n < 10 ^ width) :
    (padded width n).length = width := by
  have hdigits : (digits n).length ≤ width := (Nat.length_toDigits_le_iff (by decide) hpos).mpr h
  rw [padded, List.length_append, List.length_replicate]
  omega

theorem readDigits?_padded (width n : Nat) : readDigits? (padded width n) = some n :=
  readDigits?_zeros _ n

theorem padded_ne_nil (width n : Nat) : padded width n ≠ [] :=
  List.append_ne_nil_of_right_ne_nil _ Nat.toDigits_ne_nil

theorem isDigit_of_mem_padded {width n : Nat} {c : Char} (h : c ∈ padded width n) :
    c.isDigit = true := isDigit_of_mem_zeros h

/-- A field is filled up with zeros in front, and there is no other way to fill it. -/
theorem field_iff {width n : Nat} (hpos : 0 < width) (h : n < 10 ^ width) {text : List Char} :
    Field width n text ↔ text = padded width n := by
  constructor
  · rintro ⟨hlength, hvalue⟩
    obtain ⟨zeros, rfl⟩ := readDigits?_eq_some_iff.mp hvalue
    rw [List.length_append, List.length_replicate] at hlength
    rw [padded, ← hlength, Nat.add_sub_cancel]
  · rintro rfl
    exact ⟨length_padded hpos h, readDigits?_padded width n⟩

/-- Digits of a number, at least so many, and no more than it takes. -/
structure Wide (width n : Nat) (text : List Char) : Prop where
  le_length : width ≤ text.length
  head : text.length ≠ width → text.head? ≠ some '0'
  value : readDigits? text = some n

theorem wide_iff {width n : Nat} (hpos : 0 < n) {text : List Char} :
    Wide width n text ↔ text = padded width n := by
  constructor
  · rintro ⟨hle, hhead, hvalue⟩
    obtain ⟨zeros, rfl⟩ := readDigits?_eq_some_iff.mp hvalue
    rw [List.length_append, List.length_replicate] at hle hhead
    by_cases hlength : zeros + (digits n).length = width
    · rw [padded, ← hlength, Nat.add_sub_cancel]
    · -- No zero may stand in front, so the digits alone are enough.
      cases zeros with
      | zero => rw [padded, Nat.sub_eq_zero_of_le (by omega)]
      | succ zeros => exact absurd rfl (hhead hlength)
  · rintro rfl
    refine ⟨?_, fun hne => ?_, readDigits?_padded width n⟩
    · rw [padded, List.length_append, List.length_replicate]
      omega
    · rw [padded, List.length_append, List.length_replicate] at hne
      rw [padded, Nat.sub_eq_zero_of_le (by omega)]
      exact head?_digits n hpos

/-- A field of two places holds two digits. -/
theorem exists_padded_two {n : Nat} (h : n < 100) :
    ∃ a b, padded 2 n = [a, b] ∧ readDigits? [a, b] = some n := by
  obtain ⟨a, b, hab⟩ := List.length_eq_two.mp (length_padded (by decide : 0 < 2) h)
  exact ⟨a, b, hab, hab ▸ readDigits?_padded 2 n⟩

end Text.Numeral

namespace Calendar

open Text.Numeral

/-! ## The parts of a written moment -/

/-- A year from 0 to 9999 has four digits. Any other has a sign, and at least four digits. -/
inductive YearForm (year : Int) : List Char → Prop
  | plain {text : List Char} : 0 ≤ year → year ≤ 9999 → Field 4 year.natAbs text →
      YearForm year text
  | minus {text : List Char} : year < 0 → Wide 4 year.natAbs text → YearForm year ('-' :: text)
  | plus {text : List Char} : 9999 < year → Wide 4 year.natAbs text → YearForm year ('+' :: text)

/-- The milliseconds stand behind a point, but only if there are any. -/
inductive FractionForm (millisecond : Nat) : List Char → Prop
  | none : millisecond = 0 → FractionForm millisecond []
  | some {text : List Char} : millisecond ≠ 0 → Field 3 millisecond text →
      FractionForm millisecond ('.' :: text)

/-- Date and time of day, each in fields of fixed order with marks between them. -/
inductive Moment.Form (m : Moment) : List Char → Prop
  | mk {year month day hour minute second fraction : List Char} : YearForm m.date.year year →
      Field 2 m.date.month month → Field 2 m.date.day day → Field 2 m.hour hour →
      Field 2 m.minute minute → Field 2 m.second second → FractionForm m.millisecond fraction →
      Form m (year ++ '-' :: month ++ '-' :: day ++ 'T' :: hour ++ ':' :: minute ++ ':' :: second
        ++ fraction ++ ['Z'])

namespace Moment

theorem yearForm_iff {year : Int} {text : List Char} :
    YearForm year text ↔ text = yearText year := by
  unfold yearText
  constructor
  · intro h
    cases h with
    | plain hnonneg hle hfield =>
      rw [if_pos ⟨hnonneg, hle⟩, (field_iff (by decide) (by omega)).mp hfield]
      congr 1
      omega
    | minus hneg hwide =>
      rw [if_neg (by omega), if_pos hneg, (wide_iff (by omega)).mp hwide]
    | plus hlarge hwide =>
      rw [if_neg (by omega), if_neg (by omega), (wide_iff (by omega)).mp hwide]
  · rintro rfl
    by_cases hplain : 0 ≤ year ∧ year ≤ 9999
    · rw [if_pos hplain]
      refine .plain hplain.1 hplain.2 ((field_iff (by decide) (by omega)).mpr ?_)
      congr 1
      omega
    · rw [if_neg hplain]
      by_cases hneg : year < 0
      · rw [if_pos hneg]
        exact .minus hneg ((wide_iff (by omega)).mpr rfl)
      · rw [if_neg hneg]
        exact .plus (by omega) ((wide_iff (by omega)).mpr rfl)

theorem fractionForm_iff {millisecond : Nat} (h : millisecond < 1000) {text : List Char} :
    FractionForm millisecond text ↔ text = fractionText millisecond := by
  unfold fractionText
  constructor
  · intro hform
    cases hform with
    | none hzero => rw [if_pos hzero]
    | some hne hfield => rw [if_neg hne, (field_iff (by decide) h).mp hfield]
  · rintro rfl
    split
    · exact .none (by assumption)
    · exact .some (by assumption) ((field_iff (by decide) h).mpr rfl)

/-- Two digits are enough for all fields of a moment but the year and the milliseconds. -/
theorem Valid.lt_hundred {m : Moment} (h : m.Valid) :
    m.date.month < 10 ^ 2 ∧ m.date.day < 10 ^ 2 ∧ m.hour < 10 ^ 2 ∧ m.minute < 10 ^ 2 ∧
      m.second < 10 ^ 2 := by
  have hmonth := h.date.month_le
  have hday := h.date.day_le
  have hlength := Date.monthLength_le m.date.year m.date.month
  have hhour := h.hour_lt
  have hminute := h.minute_lt
  have hsecond := h.second_lt
  omega

/-- **A moment has one text of the form**, and that is how it is written. -/
theorem form_iff {m : Moment} (h : m.Valid) {text : List Char} : m.Form text ↔ text = m.chars := by
  obtain ⟨hmonth, hday, hhour, hminute, hsecond⟩ := h.lt_hundred
  constructor
  · rintro ⟨hy, hmo, hd, hh, hmi, hs, hf⟩
    rw [yearForm_iff.mp hy, (field_iff (by decide) hmonth).mp hmo,
      (field_iff (by decide) hday).mp hd, (field_iff (by decide) hhour).mp hh,
      (field_iff (by decide) hminute).mp hmi, (field_iff (by decide) hsecond).mp hs,
      (fractionForm_iff h.millisecond_lt).mp hf, chars]
  · rintro rfl
    exact .mk (yearForm_iff.mpr rfl) ((field_iff (by decide) hmonth).mpr rfl)
      ((field_iff (by decide) hday).mpr rfl) ((field_iff (by decide) hhour).mpr rfl)
      ((field_iff (by decide) hminute).mpr rfl) ((field_iff (by decide) hsecond).mpr rfl)
      ((fractionForm_iff h.millisecond_lt).mpr rfl)

/-! ## Reading back -/

/-- Behind its first character a written year has digits only. -/
theorem exists_yearText (year : Int) :
    ∃ first rest, yearText year = first :: rest ∧ ∀ c ∈ rest, c.isDigit = true := by
  unfold yearText
  split
  · obtain ⟨first, rest, h⟩ := List.exists_cons_of_ne_nil (padded_ne_nil 4 year.toNat)
    exact ⟨first, rest, h, fun c hc => isDigit_of_mem_padded (h ▸ List.mem_cons_of_mem _ hc)⟩
  · exact ⟨_, _, rfl, fun _ => isDigit_of_mem_padded⟩

theorem read?_yearText (year : Int) : read? (yearText year) = some year := by
  refine read?_eq_some_iff.mpr ?_
  unfold yearText
  split
  · rename_i hplain
    have hyear : year.toNat = year.natAbs := by omega
    rw [hyear]
    exact ⟨[], _, .plain hplain.1, rfl⟩
  · split
    · rename_i hneg
      exact ⟨['-'], _, .minus (Int.le_of_lt hneg), rfl⟩
    · exact ⟨['+'], _, .plus (by omega), rfl⟩

theorem readYear?_yearText (year : Int) (rest : List Char) :
    readYear? (yearText year ++ '-' :: rest) = some (year, '-' :: rest) := by
  obtain ⟨first, digits, hyear, hdigits⟩ := exists_yearText year
  have hread := read?_yearText year
  rw [hyear] at hread ⊢
  have hpart : ∀ c ∈ digits, decide (c ≠ '-') = true := by
    intro c hc
    rw [decide_eq_true_eq]
    rintro rfl
    exact absurd (hdigits _ hc) (by decide)
  rw [List.cons_append, readYear?]
  rw [List.takeWhile_append_of_pos hpart, List.dropWhile_append_of_pos hpart,
    List.takeWhile_cons_of_neg (by decide), List.dropWhile_cons_of_neg (by decide),
    List.append_nil, hread]
  rfl

theorem readFraction?_fractionText {millisecond : Nat} (h : millisecond < 1000) :
    readFraction? (fractionText millisecond ++ ['Z']) = some millisecond := by
  unfold fractionText
  split
  · rename_i hzero
    rw [hzero]
    rfl
  · obtain ⟨a, b, c, habc⟩ := List.length_eq_three.mp (length_padded (by decide : 0 < 3) h)
    have hread := readDigits?_padded 3 millisecond
    rw [habc] at hread ⊢
    exact hread

/-- **The text of a moment is read back as the moment.** -/
theorem ofText?_chars {m : Moment} (h : m.Valid) : ofText? m.chars = some m := by
  obtain ⟨hmonth, hday, hhour, hminute, hsecond⟩ := h.lt_hundred
  obtain ⟨o₁, o₂, ho, hmonth⟩ := exists_padded_two hmonth
  obtain ⟨d₁, d₂, hd, hday⟩ := exists_padded_two hday
  obtain ⟨h₁, h₂, hh, hhour⟩ := exists_padded_two hhour
  obtain ⟨m₁, m₂, hm, hminute⟩ := exists_padded_two hminute
  obtain ⟨s₁, s₂, hs, hsecond⟩ := exists_padded_two hsecond
  have hfraction := readFraction?_fractionText h.millisecond_lt
  have hchars : m.chars = yearText m.date.year ++ '-' :: o₁ :: o₂ :: '-' :: d₁ :: d₂ :: 'T' ::
      h₁ :: h₂ :: ':' :: m₁ :: m₂ :: ':' :: s₁ :: s₂ :: (fractionText m.millisecond ++ ['Z']) := by
    rw [chars, ho, hd, hh, hm, hs]
    simp only [List.append_assoc, List.cons_append, List.nil_append]
  rw [hchars, ofText?, readYear?_yearText]
  simp only [Option.bind_eq_bind, Option.bind_some, hmonth, hday, hhour, hminute, hsecond,
    hfraction]

/-- The last millisecond of a leap day, two thousand years before 1970. -/
example : (ofMs (-62162035200001)).text = "0000-02-29T23:59:59.999Z" := by decide

/-! ## The point -/

theorem not_mem_padded (width n : Nat) : '.' ∉ padded width n :=
  fun h => absurd (isDigit_of_mem_padded h) (by decide)

/-- A text has a point exactly if there are milliseconds to show. -/
theorem point_mem_chars (m : Moment) : '.' ∈ m.chars ↔ m.millisecond ≠ 0 := by
  have hyear : '.' ∉ yearText m.date.year := by
    unfold yearText
    split
    · exact not_mem_padded _ _
    · split <;> simp [not_mem_padded]
  have hfraction : '.' ∈ fractionText m.millisecond ↔ m.millisecond ≠ 0 := by
    unfold fractionText
    split <;> simp [*]
  simp [chars, hyear, hfraction, not_mem_padded]

end Moment
end Calendar
end IdMint

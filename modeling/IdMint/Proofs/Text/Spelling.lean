import Mathlib.Data.List.Induction
import Mathlib.Data.List.TakeWhile
import IdMint.Text.Blank
import IdMint.Proofs.Text.Numeral

/-!
# Spellings of a number

A number may be written in many ways: with a sign or without, with any number of zeros in front of
its digits, and with blanks on both sides. `Spelling` is the list of choices that a writer has, and
it is made without a look at how numbers are read. A text that is trimmed and then read gives a word
exactly if it is one of the spellings of that word (`readWord?_trim_eq_some_iff`).

The reader has to be followed in both directions. That it understands every spelling is the easy
one. That it understands nothing else needs the spelling to be found in what was read: the zeros in
front are whatever the canonical digits of the value do not account for (`exists_zeros`).
-/

namespace IdMint.Text

/-! ## Blanks around a text -/

namespace Blank

def OnlyBlanks (text : List Char) : Prop := ∀ c ∈ text, isBlank c = true

instance (text : List Char) : Decidable (OnlyBlanks text) := List.decidableBAll _ _

/-- A text is what is left when it is trimmed, between the blanks that it loses. -/
theorem exists_eq_trim (text : List Char) :
    ∃ before after, OnlyBlanks before ∧ OnlyBlanks after ∧ text = before ++ trim text ++ after := by
  refine ⟨text.takeWhile isBlank, ((text.dropWhile isBlank).reverse.takeWhile isBlank).reverse,
    ?_, ?_, ?_⟩
  · intro c hc
    exact List.mem_takeWhile_imp hc
  · intro c hc
    exact List.mem_takeWhile_imp (List.mem_reverse.mp hc)
  · have hrest : text.dropWhile isBlank =
        trim text ++ ((text.dropWhile isBlank).reverse.takeWhile isBlank).reverse := by
      rw [trim, ← List.reverse_append, List.takeWhile_append_dropWhile, List.reverse_reverse]
    rw [List.append_assoc, ← hrest, List.takeWhile_append_dropWhile]

/-- Blanks around a text that has none of its own are what trimming takes off. -/
theorem trim_between {before core after : List Char} (hbefore : OnlyBlanks before)
    (hafter : OnlyBlanks after) (hcore : ∀ c ∈ core, isBlank c = false) (hne : core ≠ []) :
    trim (before ++ core ++ after) = core := by
  have hfront : (before ++ core ++ after).dropWhile isBlank = core ++ after := by
    obtain ⟨c, rest, rfl⟩ := List.exists_cons_of_ne_nil hne
    rw [List.append_assoc, List.dropWhile_append_of_pos hbefore, List.cons_append,
      List.dropWhile_cons_of_neg]
    simp [hcore c List.mem_cons_self]
  have hback : (core ++ after).reverse.dropWhile isBlank = core.reverse := by
    rw [List.reverse_append,
      List.dropWhile_append_of_pos fun c hc => hafter c (List.mem_reverse.mp hc),
      List.dropWhile_eq_self_iff]
    intro hlength
    have hlast := hcore _ (List.mem_reverse.mp (List.getElem_mem hlength))
    simpa using hlast
  rw [trim, hfront, hback, List.reverse_reverse]

theorem isBlank_of_isDigit {c : Char} (h : c.isDigit = true) : isBlank c = false := by
  have hrange : 48 ≤ c.toNat ∧ c.toNat ≤ 57 := Char.isDigit_iff_toNat.mp h
  simp only [isBlank, ranges, List.any_cons, List.any_nil, Bool.or_eq_false_iff,
    Bool.and_eq_false_iff, decide_eq_false_iff_not, and_true]
  omega

end Blank

namespace Numeral

/-! ## Zeros in front -/

theorem isDigit_of_mem_zeros {zeros n : Nat} {c : Char}
    (h : c ∈ List.replicate zeros '0' ++ digits n) : c.isDigit = true := by
  rcases List.mem_append.mp h with hzero | hdigit
  · rw [List.eq_of_mem_replicate hzero]
    decide
  · exact Nat.isDigit_of_mem_toDigits (by decide) (by decide) hdigit

theorem readDigits?_zeros (zeros n : Nat) :
    readDigits? (List.replicate zeros '0' ++ digits n) = some n := by
  have hne : List.replicate zeros '0' ++ digits n ≠ [] :=
    List.append_ne_nil_of_right_ne_nil _ Nat.toDigits_ne_nil
  have hall : (List.replicate zeros '0' ++ digits n).all Char.isDigit = true := by
    rw [List.all_eq_true]
    exact fun c hc => isDigit_of_mem_zeros hc
  rw [readDigits?, if_pos ⟨hne, hall⟩, Nat.ofDigitChars_append, Nat.ofDigitChars_replicate_zero,
    Nat.mul_zero, digits, Nat.ofDigitChars_ten_toDigits]

/-- A digit is the canonical one of its value. -/
theorem digits_of_isDigit {c : Char} (h : c.isDigit = true) :
    ∃ d < 10, c.toNat - '0'.toNat = d ∧ digits d = [c] := by
  have hrange : 48 ≤ c.toNat ∧ c.toNat ≤ 57 := Char.isDigit_iff_toNat.mp h
  have hzero : '0'.toNat = 48 := rfl
  have hlt : c.toNat - 48 < 10 := by omega
  refine ⟨c.toNat - 48, hlt, rfl, ?_⟩
  have hchar : ∀ d < 10, Nat.digitChar d = Char.ofNat (48 + d) := by decide
  rw [digits, Nat.toDigits_of_lt_base hlt, hchar _ hlt, Nat.add_sub_cancel' hrange.1,
    Char.ofNat_toNat]

/-- Digits are zeros followed by the canonical digits of their value. Induction from the last digit
on, for the value of a text is that of all but its last digit, moved up by one place. -/
theorem exists_zeros (text : List Char) (hne : text ≠ []) (hall : text.all Char.isDigit = true) :
    ∃ zeros, text = List.replicate zeros '0' ++ digits (Nat.ofDigitChars 10 text 0) := by
  induction text using List.reverseRecOn with
  | nil => exact absurd rfl hne
  | append_singleton init c ih =>
    rw [List.all_append, Bool.and_eq_true, List.all_cons, List.all_nil, Bool.and_true] at hall
    obtain ⟨d, hlt, hvalue, hd⟩ := digits_of_isDigit hall.2
    have hread : Nat.ofDigitChars 10 (init ++ [c]) 0 = 10 * Nat.ofDigitChars 10 init 0 + d := by
      rw [Nat.ofDigitChars_append, Nat.ofDigitChars_cons, Nat.ofDigitChars_nil, hvalue]
    rw [hread]
    by_cases hinit : init = []
    · refine ⟨0, ?_⟩
      rw [hinit, Nat.ofDigitChars_nil, Nat.mul_zero, Nat.zero_add, hd]
      rfl
    · obtain ⟨zeros, hzeros⟩ := ih hinit hall.1
      by_cases hm : Nat.ofDigitChars 10 init 0 = 0
      · -- The digits so far are all zeros, and one of them stood for their value.
        refine ⟨zeros + 1, ?_⟩
        rw [hm] at hzeros ⊢
        have hzero : digits 0 = ['0'] := rfl
        rw [hzeros, hzero, Nat.mul_zero, Nat.zero_add, hd, List.replicate_succ']
      · refine ⟨zeros, ?_⟩
        have happend : digits (Nat.ofDigitChars 10 init 0) ++ digits d =
            digits (10 * Nat.ofDigitChars 10 init 0 + d) :=
          Nat.toDigits_append_toDigits (by decide) (Nat.pos_of_ne_zero hm) hlt
        rw [← happend, ← List.append_assoc, ← hzeros, hd]

theorem readDigits?_eq_some_iff {text : List Char} {n : Nat} :
    readDigits? text = some n ↔ ∃ zeros, text = List.replicate zeros '0' ++ digits n := by
  constructor
  · intro h
    unfold readDigits? at h
    split at h
    · rename_i hdigits
      rw [← Option.some.inj h]
      exact exists_zeros text hdigits.1 hdigits.2
    · exact nomatch h
  · rintro ⟨zeros, rfl⟩
    exact readDigits?_zeros zeros n

/-! ## Signs -/

/-- The signs that an integer may be written with. A negative one needs its sign, any other may do
without, and zero takes both. -/
inductive Signed : Int → List Char → Prop where
  | plain {n : Int} : 0 ≤ n → Signed n []
  | plus {n : Int} : 0 ≤ n → Signed n ['+']
  | minus {n : Int} : n ≤ 0 → Signed n ['-']

theorem read?_minus (text : List Char) :
    read? ('-' :: text) = (readDigits? text).map fun n : Nat => -(n : Int) := by
  rw [read?]
  cases readDigits? text <;> rfl

theorem read?_plus (text : List Char) :
    read? ('+' :: text) = (readDigits? text).map fun n : Nat => (n : Int) := by
  rw [read?]
  cases readDigits? text <;> rfl

theorem read?_plain {text : List Char} (h : ∀ c ∈ text.head?, c ≠ '-' ∧ c ≠ '+') :
    read? text = (readDigits? text).map fun n : Nat => (n : Int) := by
  unfold read?
  split
  · exact absurd rfl (h '-' rfl).1
  · exact absurd rfl (h '+' rfl).2
  · cases readDigits? text <;> rfl

theorem read?_eq_some_iff {text : List Char} {n : Int} :
    read? text = some n ↔ ∃ sign zeros, Signed n sign ∧
      text = sign ++ (List.replicate zeros '0' ++ digits n.natAbs) := by
  constructor
  · intro h
    by_cases hsigned : ∃ c rest, text = c :: rest ∧ (c = '-' ∨ c = '+')
    · obtain ⟨c, rest, rfl, rfl | rfl⟩ := hsigned
      · rw [read?_minus] at h
        obtain ⟨k, hk, rfl⟩ := Option.map_eq_some_iff.mp h
        obtain ⟨zeros, rfl⟩ := readDigits?_eq_some_iff.mp hk
        exact ⟨['-'], zeros, .minus (by omega), by rw [Int.natAbs_neg, Int.natAbs_natCast]; rfl⟩
      · rw [read?_plus] at h
        obtain ⟨k, hk, rfl⟩ := Option.map_eq_some_iff.mp h
        obtain ⟨zeros, rfl⟩ := readDigits?_eq_some_iff.mp hk
        exact ⟨['+'], zeros, .plus (by omega), by rw [Int.natAbs_natCast]; rfl⟩
    · have hhead : ∀ c ∈ text.head?, c ≠ '-' ∧ c ≠ '+' := by
        intro c hc
        obtain ⟨rest, rfl⟩ := List.head?_eq_some_iff.mp hc
        exact ⟨fun hminus => hsigned ⟨c, rest, rfl, .inl hminus⟩,
          fun hplus => hsigned ⟨c, rest, rfl, .inr hplus⟩⟩
      rw [read?_plain hhead] at h
      obtain ⟨k, hk, rfl⟩ := Option.map_eq_some_iff.mp h
      obtain ⟨zeros, rfl⟩ := readDigits?_eq_some_iff.mp hk
      exact ⟨[], zeros, .plain (by omega), by rw [Int.natAbs_natCast]; rfl⟩
  · rintro ⟨sign, zeros, hsign, rfl⟩
    have hread := readDigits?_zeros zeros n.natAbs
    cases hsign with
    | plain hn =>
      have hhead : ∀ c ∈ (List.replicate zeros '0' ++ digits n.natAbs).head?,
          c ≠ '-' ∧ c ≠ '+' := by
        intro c hc
        have hdigit := isDigit_of_mem_zeros (List.mem_of_mem_head? hc)
        exact ⟨fun hminus => absurd (hminus ▸ hdigit) (by decide),
          fun hplus => absurd (hplus ▸ hdigit) (by decide)⟩
      rw [List.nil_append, read?_plain hhead, hread, Option.map_some, Int.natAbs_of_nonneg hn]
    | plus hn =>
      rw [List.cons_append, List.nil_append, read?_plus, hread, Option.map_some,
        Int.natAbs_of_nonneg hn]
    | minus hn =>
      rw [List.cons_append, List.nil_append, read?_minus, hread, Option.map_some,
        Int.ofNat_natAbs_of_nonpos hn, Int.neg_neg]

/-! ## Spellings -/

/-- One way to write an integer as a text of its own. -/
structure Spelling (n : Int) where
  before : List Char
  sign : List Char
  zeros : Nat
  after : List Char
  before_blank : Blank.OnlyBlanks before
  signed : Signed n sign
  after_blank : Blank.OnlyBlanks after

namespace Spelling

variable {n : Int}

/-- What stands between the blanks. -/
def numeral (s : Spelling n) : List Char :=
  s.sign ++ (List.replicate s.zeros '0' ++ digits n.natAbs)

def text (s : Spelling n) : List Char := s.before ++ s.numeral ++ s.after

theorem numeral_ne_nil (s : Spelling n) : s.numeral ≠ [] :=
  List.append_ne_nil_of_right_ne_nil _
    (List.append_ne_nil_of_right_ne_nil _ Nat.toDigits_ne_nil)

theorem mem_sign {s : Spelling n} {c : Char} (h : c ∈ s.sign) : c = '+' ∨ c = '-' := by
  have hsigned := s.signed
  generalize s.sign = sign at h hsigned
  cases hsigned with
  | plain => exact nomatch h
  | plus => exact .inl (List.mem_singleton.mp h)
  | minus => exact .inr (List.mem_singleton.mp h)

theorem mem_numeral {s : Spelling n} {c : Char} (h : c ∈ s.numeral) :
    c = '+' ∨ c = '-' ∨ c.isDigit = true := by
  rcases List.mem_append.mp h with hsign | hdigits
  · exact (mem_sign hsign).imp_right .inl
  · exact .inr (.inr (isDigit_of_mem_zeros hdigits))

theorem isBlank_of_mem_numeral {s : Spelling n} {c : Char} (h : c ∈ s.numeral) :
    Blank.isBlank c = false := by
  rcases mem_numeral h with rfl | rfl | hdigit
  · decide
  · decide
  · exact Blank.isBlank_of_isDigit hdigit

theorem trim_text (s : Spelling n) : Blank.trim s.text = s.numeral :=
  Blank.trim_between s.before_blank s.after_blank (fun _ => isBlank_of_mem_numeral)
    s.numeral_ne_nil

end Spelling

/-- A text is one of the ways to write an integer. -/
def Spells (text : List Char) (n : Int) : Prop := ∃ s : Spelling n, text = s.text

theorem read?_trim_eq_some_iff {text : List Char} {n : Int} :
    read? (Blank.trim text) = some n ↔ Spells text n := by
  constructor
  · intro h
    obtain ⟨sign, zeros, hsigned, htrim⟩ := read?_eq_some_iff.mp h
    obtain ⟨before, after, hbefore, hafter, htext⟩ := Blank.exists_eq_trim text
    rw [htrim] at htext
    exact ⟨⟨before, sign, zeros, after, hbefore, hsigned, hafter⟩, htext⟩
  · rintro ⟨s, rfl⟩
    rw [s.trim_text]
    exact read?_eq_some_iff.mpr ⟨s.sign, s.zeros, s.signed, rfl⟩

/-- **A trimmed text is read as a word exactly if it spells that word.** -/
theorem readWord?_trim_eq_some_iff {text : List Char} {w : Int64} :
    readWord? (Blank.trim text) = some w ↔ Spells text w.toInt := by
  rw [← read?_trim_eq_some_iff, readWord?, Option.bind_eq_some_iff]
  have hword (n : Int) : (Checked.word .addition n).toOption = some w ↔ w.toInt = n := by
    rw [← Checked.word_eq_ok_iff]
    cases Checked.word .addition n <;> simp [Except.toOption]
  constructor
  · rintro ⟨n, hread, hn⟩
    rw [hread, (hword n).mp hn]
  · intro hread
    exact ⟨_, hread, (hword _).mpr rfl⟩

/-- No text spells two numbers. -/
theorem Spells.unique {text : List Char} {m n : Int} (hm : Spells text m) (hn : Spells text n) :
    m = n := by
  have h := read?_trim_eq_some_iff.mpr hm
  rw [read?_trim_eq_some_iff.mpr hn] at h
  exact (Option.some.inj h).symm

/-! ## Texts that spell nothing -/

/-- Texts in which something is missing, or stands where no spelling has it. -/
inductive Misspelled : List Char → Prop where
  /-- Nothing but blanks, or nothing at all. -/
  | blank {text : List Char} : Blank.OnlyBlanks text → Misspelled text
  | loneSign {before after : List Char} {sign : Char} : Blank.OnlyBlanks before →
      Blank.OnlyBlanks after → sign = '+' ∨ sign = '-' → Misspelled (before ++ [sign] ++ after)
  /-- A blank with something on either side of it. -/
  | innerBlank {before after : List Char} {c : Char} : ¬ Blank.OnlyBlanks before →
      Blank.isBlank c = true → ¬ Blank.OnlyBlanks after → Misspelled (before ++ c :: after)
  /-- A character of no use in a numeral. A digit that is not of ASCII is one. -/
  | stranger {text : List Char} {c : Char} : c ∈ text → Blank.isBlank c = false →
      c.isDigit = false → c ≠ '+' → c ≠ '-' → Misspelled text

/-- A blank of a spelling has only blanks on one side of it. -/
theorem Spelling.onlyBlanks_of_eq {n : Int} (s : Spelling n) {before after : List Char} {c : Char}
    (h : s.text = before ++ c :: after) (hc : Blank.isBlank c = true) :
    Blank.OnlyBlanks before ∨ Blank.OnlyBlanks after := by
  rw [text, List.append_assoc] at h
  rcases List.append_eq_append_iff.mp h with ⟨rest, rfl, hrest⟩ | ⟨rest, hbefore, -⟩
  · rcases List.append_eq_append_iff.mp hrest with ⟨lost, rfl, hafter⟩ | ⟨lost, hnumeral, hlost⟩
    · -- The blank stands behind the numeral.
      refine .inr fun d hd => s.after_blank d ?_
      rw [hafter]
      exact List.mem_append_right _ (List.mem_cons_of_mem _ hd)
    · cases lost with
      | nil =>
        refine .inr fun d hd => s.after_blank d ?_
        rw [List.nil_append] at hlost
        exact hlost ▸ List.mem_cons_of_mem _ hd
      | cons d lost =>
        -- Here it would stand inside the numeral, which has no blanks.
        obtain ⟨rfl, -⟩ := List.cons.inj hlost
        have hmem : c ∈ s.numeral := by
          rw [hnumeral]
          exact List.mem_append_right _ List.mem_cons_self
        rw [isBlank_of_mem_numeral hmem] at hc
        exact nomatch hc
  · refine .inl fun d hd => s.before_blank d ?_
    rw [hbefore]
    exact List.mem_append_left _ hd

theorem Misspelled.not_spells {text : List Char} (h : Misspelled text) (n : Int) :
    ¬ Spells text n := by
  intro hspells
  cases h with
  | blank hblank =>
    obtain ⟨s, rfl⟩ := hspells
    obtain ⟨c, rest, hcons⟩ := List.exists_cons_of_ne_nil s.numeral_ne_nil
    have hmem : c ∈ s.numeral := hcons ▸ List.mem_cons_self
    have hc := hblank c (List.mem_append_left _ (List.mem_append_right _ hmem))
    rw [Spelling.isBlank_of_mem_numeral hmem] at hc
    exact nomatch hc
  | @loneSign before after sign hbefore hafter hsign =>
    have hsolid : ∀ c ∈ [sign], Blank.isBlank c = false := by
      intro c hc
      rw [List.mem_singleton.mp hc]
      rcases hsign with rfl | rfl <;> decide
    have hread := read?_trim_eq_some_iff.mpr hspells
    rw [Blank.trim_between hbefore hafter hsolid (List.cons_ne_nil _ _)] at hread
    rcases hsign with rfl | rfl <;> exact nomatch hread
  | innerBlank hbefore hc hafter =>
    obtain ⟨s, hs⟩ := hspells
    exact (s.onlyBlanks_of_eq hs.symm hc).elim hbefore hafter
  | @stranger _ c hmem hblank hdigit hplus hminus =>
    obtain ⟨s, rfl⟩ := hspells
    have hstrange : c ∉ s.numeral := by
      intro h
      rcases Spelling.mem_numeral h with rfl | rfl | h
      · exact hplus rfl
      · exact hminus rfl
      · exact absurd (h.symm.trans hdigit) (by decide)
    rcases List.mem_append.mp hmem with hmem | hafter
    · rcases List.mem_append.mp hmem with hbefore | hnumeral
      · exact absurd ((s.before_blank c hbefore).symm.trans hblank) (by decide)
      · exact hstrange hnumeral
    · exact absurd ((s.after_blank c hafter).symm.trans hblank) (by decide)

end Numeral
end IdMint.Text

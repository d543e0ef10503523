import Mathlib.Data.Option.Basic
import IdMint.Text.Hex

/-!
# What hexadecimal text is

A text is a run of digits of either case or it is not read at all, and what it is read as is settled
by its lowercase form alone: `decode?_eq_some_iff` says that a text gives some bytes exactly if
these bytes, written out, are the text in lower case. That the lowercase form decides is one fact
about single characters (`value?_toLower`); the rest is that reading undoes writing.

What a text is made of can be asked of its characters or of its bytes. The two agree for digits,
since each of them is one byte and no byte of a longer character is one of theirs
(`all_isDigit_iff_utf8`).
-/

namespace IdMint.Text.Hex

/-! ## Digits -/

/-- The digits of both cases. -/
def alphabet : String := "0123456789abcdefABCDEF"

def IsDigit (c : Char) : Prop := c ∈ alphabet.toList

instance (c : Char) : Decidable (IsDigit c) := inferInstanceAs (Decidable (c ∈ alphabet.toList))

/-- What holds of the first so many characters, one by one. -/
theorem of_toNat_lt {bound : Nat} {p : Char → Prop} (h : ∀ k < bound, p (Char.ofNat k)) {c : Char}
    (hc : c.toNat < bound) : p c := by
  have hk := h c.toNat hc
  rwa [Char.ofNat_toNat] at hk

theorem toNat_of_value? {c : Char} {n : Nat} (h : value? c = some n) : c.toNat < 103 := by
  have hle {a b : Char} (hab : a ≤ b) : a.toNat ≤ b.toNat := hab
  unfold value? at h
  split at h
  · rename_i hdecimal
    exact Nat.lt_of_le_of_lt (hle hdecimal.2) (by decide)
  split at h
  · rename_i hlower
    exact Nat.lt_of_le_of_lt (hle hlower.2) (by decide)
  split at h
  · rename_i hupper
    exact Nat.lt_of_le_of_lt (hle hupper.2) (by decide)
  · exact nomatch h

theorem value?_eq_some {c : Char} {n : Nat} (h : value? c = some n) :
    n < 16 ∧ digit n = c.toLower ∧ IsDigit c := by
  have hall : ∀ m ∈ value? c, m < 16 ∧ digit m = c.toLower ∧ IsDigit c :=
    of_toNat_lt (p := fun d => ∀ m ∈ value? d, m < 16 ∧ digit m = d.toLower ∧ IsDigit d)
      (by decide) (toNat_of_value? h)
  exact hall n h

/-- What holds of each of the twenty-two digits. The list is asked, and not all characters. -/
theorem IsDigit.of_all {c : Char} {p : Char → Bool} (h : IsDigit c)
    (hall : alphabet.toList.all p = true) : p c = true :=
  List.all_eq_true.mp hall c h

theorem IsDigit.exists_value {c : Char} (h : IsDigit c) : ∃ n, value? c = some n :=
  Option.isSome_iff_exists.mp (h.of_all (p := fun d => (value? d).isSome) (by decide))

theorem value?_toLower (c : Char) : value? c.toLower = value? c := by
  by_cases hupper : 65 ≤ c.toNat ∧ c.toNat ≤ 90
  · have hlt : c.toNat < 91 := by omega
    exact of_toNat_lt (p := fun d => value? d.toLower = value? d) (by decide) hlt
  · have hsame : c.toLower = c := dif_neg hupper
    rw [hsame]

/-- The digits as they are written are those that numbers have in base sixteen. -/
theorem encodeByte_eq (b : UInt8) :
    encodeByte b = [Nat.digitChar (b.toNat / 16), Nat.digitChar (b.toNat % 16)] := by
  have hdigit : ∀ n < 16, digit n = Nat.digitChar n := by decide
  have hb := b.toNat_lt
  rw [encodeByte, hdigit _ (by omega), hdigit _ (by omega)]

theorem mem_encode {bytes : List UInt8} {c : Char} (h : c ∈ encode bytes) :
    c ∈ "0123456789abcdef".toList := by
  have hlower : ∀ n < 16, digit n ∈ "0123456789abcdef".toList := by decide
  obtain ⟨b, -, hc⟩ := List.mem_flatMap.mp h
  have hb := b.toNat_lt
  simp only [encodeByte, List.mem_cons, List.not_mem_nil, or_false] at hc
  rcases hc with rfl | rfl
  · exact hlower _ (by omega)
  · exact hlower _ (by omega)

/-! ## Texts -/

theorem decode?_map_toLower (text : List Char) :
    decode? (text.map Char.toLower) = decode? text := by
  induction text using decode?.induct with
  | case1 => rfl
  | case2 => rfl
  | case3 high low rest ih =>
    rw [List.map_cons, List.map_cons, decode?, decode?, value?_toLower, value?_toLower, ih]

/-- One step of reading, taken apart. -/
theorem decode?_cons_cons_eq_some {high low : Char} {rest : List Char} {bytes : List UInt8}
    (h : decode? (high :: low :: rest) = some bytes) : ∃ m n tail, value? high = some m ∧
      value? low = some n ∧ decode? rest = some tail ∧
      bytes = UInt8.ofNat (16 * m + n) :: tail := by
  simp only [decode?, Option.bind_eq_bind, Option.bind_eq_some_iff, Option.pure_def] at h
  obtain ⟨m, hm, n, hn, tail, htail, hbytes⟩ := h
  exact ⟨m, n, tail, hm, hn, htail, (Option.some.inj hbytes).symm⟩

theorem encodeByte_ofNat {m n : Nat} (hm : m < 16) (hn : n < 16) :
    encodeByte (UInt8.ofNat (16 * m + n)) = [digit m, digit n] := by
  have hbyte : (UInt8.ofNat (16 * m + n)).toNat = 16 * m + n := by
    rw [UInt8.toNat_ofNat']
    exact Nat.mod_eq_of_lt (by omega)
  have hhigh : (16 * m + n) / 16 = m := by omega
  have hlow : (16 * m + n) % 16 = n := by omega
  rw [encodeByte, hbyte, hhigh, hlow]

theorem encode_of_decode? {text : List Char} {bytes : List UInt8}
    (h : decode? text = some bytes) : encode bytes = text.map Char.toLower := by
  induction text using decode?.induct generalizing bytes with
  | case1 =>
    cases h
    rfl
  | case2 => exact nomatch h
  | case3 high low rest ih =>
    obtain ⟨m, n, tail, hm, hn, htail, rfl⟩ := decode?_cons_cons_eq_some h
    obtain ⟨hm16, hhigh, -⟩ := value?_eq_some hm
    obtain ⟨hn16, hlow, -⟩ := value?_eq_some hn
    have hrest : tail.flatMap encodeByte = rest.map Char.toLower := ih htail
    rw [encode, List.flatMap_cons, encodeByte_ofNat hm16 hn16, hhigh, hlow, hrest]
    rfl

/-- **A text is read as some bytes exactly if they are written as its lowercase form.** -/
theorem decode?_eq_some_iff {text : List Char} {bytes : List UInt8} :
    decode? text = some bytes ↔ encode bytes = text.map Char.toLower := by
  constructor
  · exact encode_of_decode?
  · intro h
    rw [← decode?_map_toLower, ← h, decode?_encode]

theorem isDigit_of_decode? {text : List Char} {bytes : List UInt8}
    (h : decode? text = some bytes) : ∀ c ∈ text, IsDigit c := by
  induction text using decode?.induct generalizing bytes with
  | case1 => exact fun _ hc => nomatch hc
  | case2 => exact nomatch h
  | case3 high low rest ih =>
    obtain ⟨m, n, tail, hm, hn, htail, -⟩ := decode?_cons_cons_eq_some h
    intro c hc
    rcases List.mem_cons.mp hc with rfl | hc
    · exact (value?_eq_some hm).2.2
    rcases List.mem_cons.mp hc with rfl | hc
    · exact (value?_eq_some hn).2.2
    · exact ih htail c hc

theorem length_of_decode? {text : List Char} {bytes : List UInt8}
    (h : decode? text = some bytes) : text.length = 2 * bytes.length := by
  have hlength := congrArg List.length (encode_of_decode? h)
  rw [length_encode, List.length_map] at hlength
  exact hlength.symm

/-- Digits in pairs are always read. -/
theorem exists_decode? {text : List Char} (heven : text.length % 2 = 0)
    (h : ∀ c ∈ text, IsDigit c) : ∃ bytes, decode? text = some bytes := by
  induction text using decode?.induct with
  | case1 => exact ⟨[], rfl⟩
  | case2 => exact nomatch heven
  | case3 high low rest ih =>
    obtain ⟨m, hm⟩ := (h high List.mem_cons_self).exists_value
    obtain ⟨n, hn⟩ := (h low (List.mem_cons_of_mem _ List.mem_cons_self)).exists_value
    obtain ⟨tail, htail⟩ := ih (by simp only [List.length_cons] at heven; omega)
      fun c hc => h c (List.mem_cons_of_mem _ (List.mem_cons_of_mem _ hc))
    refine ⟨UInt8.ofNat (16 * m + n) :: tail, ?_⟩
    rw [decode?, hm, hn, htail]
    rfl

/-! ## Bytes of a text -/

/-- The bytes that a text of digits is stored as. -/
def IsDigitByte (b : UInt8) : Prop := b ∈ alphabet.toUTF8.data.toList

instance (b : UInt8) : Decidable (IsDigitByte b) :=
  inferInstanceAs (Decidable (b ∈ alphabet.toUTF8.data.toList))

/-- The byte of a digit is its number in ASCII. -/
theorem IsDigitByte.isDigit {b : UInt8} (h : IsDigitByte b) :
    b.toNat < 128 ∧ IsDigit (Char.ofNat b.toNat) := by
  have htable : (alphabet.toUTF8.data.toList.all fun d =>
      decide (d.toNat < 128 ∧ IsDigit (Char.ofNat d.toNat))) = true := by decide
  exact of_decide_eq_true (List.all_eq_true.mp htable b h)

theorem IsDigit.utf8EncodeChar {c : Char} (h : IsDigit c) :
    ∃ b, String.utf8EncodeChar c = [b] ∧ IsDigitByte b := by
  have hstored := h.of_all (p := fun d => decide
    (String.utf8EncodeChar d = [UInt8.ofNat d.toNat] ∧ IsDigitByte (UInt8.ofNat d.toNat)))
    (by decide)
  exact ⟨_, of_decide_eq_true hstored⟩

/-- The last byte of a longer character is one that no character of its own has. -/
theorem exists_large_byte {c : Char} (h : 127 < c.toNat) :
    ∃ b ∈ String.utf8EncodeChar c, 128 ≤ b.toNat := by
  refine ⟨UInt8.ofNat (c.toNat % 64 + 128), ?_, ?_⟩
  · have hlong : ¬ c.val.toNat ≤ 127 := Nat.not_le.mpr h
    rw [String.utf8EncodeChar, if_neg hlong]
    split
    · exact List.mem_cons_of_mem _ List.mem_cons_self
    split
    · exact List.mem_cons_of_mem _ (List.mem_cons_of_mem _ List.mem_cons_self)
    · exact List.mem_cons_of_mem _
        (List.mem_cons_of_mem _ (List.mem_cons_of_mem _ List.mem_cons_self))
  · rw [UInt8.toNat_ofNat']
    omega

theorem isDigit_of_utf8EncodeChar {c : Char} (h : ∀ b ∈ String.utf8EncodeChar c, IsDigitByte b) :
    IsDigit c := by
  by_cases hlong : 127 < c.toNat
  · obtain ⟨b, hb, hlarge⟩ := exists_large_byte hlong
    exact absurd (h b hb).isDigit.1 (Nat.not_lt.mpr hlarge)
  · have hshort : c.val.toNat ≤ 127 := Nat.not_lt.mp hlong
    have hbyte : UInt8.ofNat c.toNat ∈ String.utf8EncodeChar c := by
      rw [String.utf8EncodeChar, if_pos hshort]
      exact List.mem_singleton_self _
    have htoNat : (UInt8.ofNat c.toNat).toNat = c.toNat := by
      rw [UInt8.toNat_ofNat']
      omega
    have hc := (h _ hbyte).isDigit.2
    rwa [htoNat, Char.ofNat_toNat] at hc

/-- Digits are as many bytes as they are characters. -/
theorem length_utf8_of_isDigit {text : List Char} (h : ∀ c ∈ text, IsDigit c) :
    (text.flatMap String.utf8EncodeChar).length = text.length := by
  induction text with
  | nil => rfl
  | cons c rest ih =>
    obtain ⟨b, hb, -⟩ := (h c List.mem_cons_self).utf8EncodeChar
    rw [List.flatMap_cons, List.length_append, hb,
      ih fun d hd => h d (List.mem_cons_of_mem _ hd), List.length_cons]
    exact Nat.add_comm 1 rest.length

/-- **A text is all digits exactly if its bytes are those of digits.** -/
theorem all_isDigit_iff_utf8 {text : List Char} :
    (∀ c ∈ text, IsDigit c) ↔ ∀ b ∈ text.flatMap String.utf8EncodeChar, IsDigitByte b := by
  constructor
  · intro h b hb
    obtain ⟨c, hc, hbyte⟩ := List.mem_flatMap.mp hb
    obtain ⟨d, hd, hdigit⟩ := (h c hc).utf8EncodeChar
    rw [hd, List.mem_singleton] at hbyte
    rwa [hbyte]
  · intro h c hc
    exact isDigit_of_utf8EncodeChar fun b hb => h b (List.mem_flatMap.mpr ⟨c, hc, hb⟩)

end IdMint.Text.Hex

import IdMint.ObjectId.Basic
import IdMint.Text.Blank
import IdMint.Proofs.Text.Hex

/-!
# The text of an id

An id is written as its twelve bytes in lowercase digits, and a text is an id exactly if it is
twenty-four digits, of either case. Case is all that a text has beyond its id: what is read from a
text is what its lowercase form is the text of (`ofText_eq_ok_iff`), so nothing else about reading
has to be followed here. A text that is no id is refused whole, wherever its fault is.
-/

namespace IdMint.ObjectId

open Text

/-- Twenty-four hexadecimal digits, of either case. -/
def Readable (text : String) : Prop := text.length = 24 ∧ ∀ c ∈ text.toList, Hex.IsDigit c

instance (text : String) : Decidable (Readable text) :=
  have : Decidable (∀ c ∈ text.toList, Hex.IsDigit c) := List.decidableBAll _ _
  inferInstanceAs (Decidable (text.length = 24 ∧ ∀ c ∈ text.toList, Hex.IsDigit c))

/-- Texts with something that no id is written with. -/
inductive Misshapen (text : String) : Prop where
  | oddSize : text.toUTF8.size % 2 = 1 → Misshapen text
  | sign {c : Char} : c ∈ text.toList → c = '+' ∨ c = '-' → Misshapen text
  | blank {c : Char} : c ∈ text.toList → Blank.isBlank c = true → Misshapen text
  /-- A character of several bytes, whether or not these bytes fill up the twenty-four. -/
  | longCharacter {c : Char} : c ∈ text.toList → 1 < c.utf8Size → Misshapen text

variable {id : ObjectId} {text : String}

/-! ## What is written -/

theorem toList_hex (id : ObjectId) : id.hex.toList = Hex.encode id.bytes := String.toList_ofList

theorem length_hex (id : ObjectId) : id.hex.length = 24 := by
  rw [← String.length_toList, toList_hex, Hex.length_encode, id.length_bytes]

theorem toList_hex_eq_digits (id : ObjectId) : id.hex.toList = id.bytes.flatMap fun b =>
    [Nat.digitChar (b.toNat / 16), Nat.digitChar (b.toNat % 16)] := by
  rw [toList_hex, Hex.encode, funext Hex.encodeByte_eq]

/-! ## What is read -/

theorem ofBytes?_eq_some_iff {bytes : List UInt8} : ofBytes? bytes = some id ↔ bytes = id.bytes := by
  obtain ⟨own, hown⟩ := id
  by_cases hlength : bytes.length = 12
  · simp [ofBytes?, hlength]
  · have hne : bytes ≠ own := fun h => hlength (h ▸ hown)
    simp [ofBytes?, hlength, hne]

theorem ofText_eq_ok_iff_decode? :
    ofText text = .ok id ↔ Hex.decode? text.toList = some id.bytes := by
  have hread : ofText text = .ok id ↔ (Hex.decode? text.toList).bind ofBytes? = some id := by
    cases hid : (Hex.decode? text.toList).bind ofBytes? <;> simp [ofText, hid]
  rw [hread, Option.bind_eq_some_iff]
  constructor
  · rintro ⟨bytes, hdecode, hid⟩
    rw [hdecode, ofBytes?_eq_some_iff.mp hid]
  · intro hdecode
    exact ⟨_, hdecode, ofBytes?_eq_some_iff.mpr rfl⟩

theorem toList_toLower (text : String) :
    text.toLower.toList = text.toList.map Char.toLower := String.toList_map

/-- **A text is read as the id whose text it is in lower case.** -/
theorem ofText_eq_ok_iff : ofText text = .ok id ↔ id.hex = text.toLower := by
  rw [ofText_eq_ok_iff_decode?, Hex.decode?_eq_some_iff, ← toList_hex, ← String.toList_inj,
    toList_toLower]

theorem readable_of_ofText (h : ofText text = .ok id) : Readable text := by
  have hdecode := ofText_eq_ok_iff_decode?.mp h
  refine ⟨?_, Hex.isDigit_of_decode? hdecode⟩
  rw [← String.length_toList, Hex.length_of_decode? hdecode, id.length_bytes]

theorem Readable.exists_id (h : Readable text) : ∃ id, ofText text = .ok id := by
  have hlength : text.toList.length = 24 := by rw [String.length_toList, h.1]
  obtain ⟨bytes, hdecode⟩ := Hex.exists_decode? (by rw [hlength]) h.2
  have hbytes : bytes.length = 12 := by
    have htwice := Hex.length_of_decode? hdecode
    omega
  exact ⟨⟨bytes, hbytes⟩, ofText_eq_ok_iff_decode?.mpr hdecode⟩

/-- Reading either gives an id or hands the text back as it is. -/
theorem ofText_eq_ok_or_error (text : String) :
    (∃ id, ofText text = .ok id) ∨ ofText text = .error (.invalidObjectId text) := by
  unfold ofText
  split
  · exact .inl ⟨_, rfl⟩
  · exact .inr rfl

theorem ofText_of_not_readable (h : ¬ Readable text) :
    ofText text = .error (.invalidObjectId text) := by
  rcases ofText_eq_ok_or_error text with ⟨id, hid⟩ | herror
  · exact absurd (readable_of_ofText hid) h
  · exact herror

/-- Texts of ids are the same id if they differ in case only. -/
theorem ofText_eq_ofText_iff {other : String} (h : Readable text) :
    ofText text = ofText other ↔ text.toLower = other.toLower := by
  obtain ⟨id, hid⟩ := h.exists_id
  rw [hid, eq_comm, ofText_eq_ok_iff, ofText_eq_ok_iff.mp hid]

/-! ## The bytes of a text -/

theorem toList_toUTF8 (text : String) :
    text.toUTF8.data.toList = text.toList.flatMap String.utf8EncodeChar := by
  have hbytes : text.toUTF8 = text.toList.utf8Encode := String.utf8Encode_toList.symm
  rw [hbytes, List.utf8Encode, List.toList_data_toByteArray]

theorem readable_iff_utf8 : Readable text ↔
    text.toUTF8.size = 24 ∧ ∀ b ∈ text.toUTF8.data.toList, Hex.IsDigitByte b := by
  have hsize : text.toUTF8.size = (text.toList.flatMap String.utf8EncodeChar).length := by
    rw [← toList_toUTF8, Array.length_toList]
    rfl
  rw [hsize, toList_toUTF8, ← Hex.all_isDigit_iff_utf8, Readable, ← String.length_toList]
  refine and_congr_left fun hdigits => ?_
  rw [Hex.length_utf8_of_isDigit hdigits]

theorem Misshapen.not_readable (h : Misshapen text) : ¬ Readable text := by
  intro hreadable
  have hdigit {c : Char} (hc : c ∈ text.toList) :
      c ≠ '+' ∧ c ≠ '-' ∧ Blank.isBlank c = false ∧ c.utf8Size = 1 :=
    of_decide_eq_true ((hreadable.2 c hc).of_all (p := fun d => decide
      (d ≠ '+' ∧ d ≠ '-' ∧ Blank.isBlank d = false ∧ d.utf8Size = 1)) (by decide))
  cases h with
  | oddSize hodd =>
    rw [(readable_iff_utf8.mp hreadable).1] at hodd
    exact nomatch hodd
  | sign hc hsign =>
    obtain ⟨hplus, hminus, -⟩ := hdigit hc
    exact hsign.elim hplus hminus
  | blank hc hblank =>
    obtain ⟨-, -, hvisible, -⟩ := hdigit hc
    rw [hvisible] at hblank
    exact nomatch hblank
  | longCharacter hc hlong =>
    obtain ⟨-, -, -, hsize⟩ := hdigit hc
    omega

/-! ## The format -/

/-- **The text of ids.** An id is written as twenty-four lowercase digits, two for each byte, and
is read back from them. A text is read exactly if it is twenty-four digits of either case, which can
be told from its characters as well as from its bytes, and what is read is written as its lowercase
form, so that two such texts are one id exactly if they differ in case only. Any other text is
refused as it stands. -/
theorem text_format (id : ObjectId) (text other : String) :
    (ofText id.hex = .ok id ∧ id.hex.length = 24 ∧
      (∀ c ∈ id.hex.toList, c ∈ "0123456789abcdef".toList) ∧
      id.hex.toList = id.bytes.flatMap fun b =>
        [Nat.digitChar (b.toNat / 16), Nat.digitChar (b.toNat % 16)]) ∧
    ((∃ read, ofText text = .ok read) ↔ Readable text) ∧
    (ofText text = .ok id ↔ Readable text ∧ id.hex = text.toLower) ∧
    (Readable text → (ofText text = ofText other ↔ text.toLower = other.toLower)) ∧
    (Readable text ↔
      text.toUTF8.size = 24 ∧ ∀ b ∈ text.toUTF8.data.toList, Hex.IsDigitByte b) ∧
    (¬ Readable text → ofText text = .error (.invalidObjectId text)) ∧
    (Misshapen text → ofText text = .error (.invalidObjectId text)) := by
  refine ⟨⟨ofText_hex id, length_hex id, ?_, toList_hex_eq_digits id⟩, ?_, ?_,
    ofText_eq_ofText_iff, readable_iff_utf8, ofText_of_not_readable,
    fun h => ofText_of_not_readable h.not_readable⟩
  · intro c hc
    rw [toList_hex] at hc
    exact Hex.mem_encode hc
  · exact ⟨fun ⟨_, hread⟩ => readable_of_ofText hread, Readable.exists_id⟩
  · exact ⟨fun h => ⟨readable_of_ofText h, ofText_eq_ok_iff.mp h⟩,
      fun h => ofText_eq_ok_iff.mpr h.2⟩

/-- One id from texts in upper and in mixed case, and texts that are none: one of a digit too many,
and two of twenty-four bytes, the one with signs and the other with characters of two bytes. -/
theorem text_format_in_either_case :
    let id : ObjectId :=
      { bytes := [0x50, 0x7f, 0x1f, 0x77, 0xbc, 0xf8, 0x6c, 0xd7, 0x99, 0x43, 0x90, 0x11]
        length_bytes := rfl }
    let upper := "507F1F77BCF86CD799439011"
    let mixed := "507f1F77bcf86CD799439011"
    let signed := "+f+f+f+f+f+f+f+f+f+f+f+f"
    let accented := "éé1f77bcf86cd799439011"
    (ofText upper = .ok id ∧ id.hex = upper.toLower) ∧
    (Readable upper ∧ ofText upper = ofText mixed) ∧
    (¬ Readable (upper ++ "0") ∧
      ofText (upper ++ "0") = .error (.invalidObjectId (upper ++ "0"))) ∧
    (Misshapen signed ∧ ofText signed = .error (.invalidObjectId signed)) ∧
    (accented.toUTF8.size = 24 ∧ Misshapen accented ∧
      ofText accented = .error (.invalidObjectId accented)) := by
  intro id upper mixed signed accented
  have hupper : Readable upper := by decide
  have hlower : id.hex = upper.toLower := by
    rw [← String.toList_inj, toList_toLower]
    decide
  have hcase : upper.toLower = mixed.toLower := by
    rw [← String.toList_inj, toList_toLower, toList_toLower]
    decide
  have hlong : ¬ Readable (upper ++ "0") := by decide
  have hsigned : Misshapen signed := .sign (c := '+') (by decide) (.inl rfl)
  have haccented : Misshapen accented := .longCharacter (c := 'é') (by decide) (by decide)
  obtain ⟨-, -, hread, hsame, -⟩ := text_format id upper mixed
  obtain ⟨-, -, -, -, -, hlongRefused, -⟩ := text_format id (upper ++ "0") upper
  obtain ⟨-, -, -, -, -, -, hsignedRefused⟩ := text_format id signed upper
  obtain ⟨-, -, -, -, -, -, haccentedRefused⟩ := text_format id accented upper
  exact ⟨⟨hread.mpr ⟨hupper, hlower⟩, hlower⟩, ⟨hupper, (hsame hupper).mpr hcase⟩,
    ⟨hlong, hlongRefused hlong⟩, ⟨hsigned, hsignedRefused hsigned⟩,
    ⟨by decide, haccented, haccentedRefused haccented⟩⟩

end IdMint.ObjectId

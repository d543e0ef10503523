import Mathlib.Algebra.Group.Nat.Defs
import IdMint.Proofs.BigEndian
import IdMint.Proofs.ObjectId.Text

/-!
# The order of ids

Ids are ordered by their bytes. There are three more ways to look at an id: as a text, as one number
of ninety-six bits, and as a time, a process and a counter. All of them put ids in the same order
(`ComparesAlike`), because each is made of the bytes from the front to the back, in pieces of a
fixed length: a byte is two digits, of which the first weighs more, and a part is a run of bytes.

So ids can be sorted as they are or by their texts. The sorted list does not depend on the order in
which the ids came, for ids that compare as equal are equal in every byte.
-/

namespace IdMint

/-! ## Texts -/

theorem compare_chars (l m : List Char) : compare l m = compareOfLessAndEq l m := by
  induction l generalizing m with
  | nil => cases m <;> simp [compareOfLessAndEq]
  | cons c l ih =>
    cases m with
    | nil => simp [compareOfLessAndEq]
    | cons d m =>
      have hcd : compare c d = compareOfLessAndEq c d := rfl
      rw [List.compare_cons_cons, ih, hcd]
      simp only [compareOfLessAndEq, List.cons_lt_cons_iff, List.cons.injEq]
      by_cases hlt : c < d
      · simp [hlt]
      · by_cases heq : c = d
        · simp [heq]
        · simp [hlt, heq]

/-- Texts are compared character by character. -/
theorem compare_text (s t : String) : compare s t = compare s.toList t.toList := by
  rw [compare_chars]
  show compareOfLessAndEq s t = _
  simp only [compareOfLessAndEq, String.lt_iff, String.toList_inj]

namespace Text.Hex

/-- The digits stand in the order of their values, although letters and numerals are not neighbours
among the characters. -/
theorem compare_digit : ∀ m < 16, ∀ n < 16, compare (digit m) (digit n) = compare m n := by decide

theorem compare_encodeByte (x y : UInt8) :
    compare (encodeByte x) (encodeByte y) = compare x y := by
  have hx := x.toNat_lt
  have hy := y.toNat_lt
  calc compare (encodeByte x) (encodeByte y)
    _ = (compare (x.toNat / 16) (y.toNat / 16)).then (compare (x.toNat % 16) (y.toNat % 16)) := by
      rw [encodeByte, encodeByte, List.compare_cons_cons, List.compare_cons_cons,
        compare_digit _ (by omega) _ (by omega), compare_digit _ (by omega) _ (by omega),
        List.compare_nil_nil, Ordering.then_eq]
    _ = compare (16 * (x.toNat / 16) + x.toNat % 16) (16 * (y.toNat / 16) + y.toNat % 16) :=
      (compare_places (Nat.mod_lt _ (by decide)) (Nat.mod_lt _ (by decide))).symm
    _ = compare x y := by rw [Nat.div_add_mod, Nat.div_add_mod, compare_byte]

/-- **Hexadecimal texts are ordered as the bytes that they are written for.** -/
theorem compare_encode (run run' : List UInt8) :
    compare (encode run) (encode run') = compare run run' := by
  induction run generalizing run' with
  | nil => cases run' <;> rfl
  | cons x rest ih =>
    cases run' with
    | nil => rfl
    | cons y rest' =>
      have hlength : (encodeByte x).length = (encodeByte y).length := rfl
      rw [encode, encode, List.flatMap_cons, List.flatMap_cons, compare_append hlength,
        compare_encodeByte, List.compare_cons_cons]
      exact congrArg _ (ih rest')

end Text.Hex

namespace ObjectId

/-! ## Parts -/

theorem toNat_issuedSecs (id : ObjectId) :
    id.issuedSecs.toNat = BigEndian.value (id.bytes.take 4) := by
  have hlt : BigEndian.value (id.bytes.take 4) < 2 ^ 32 := by
    have hlt := BigEndian.value_lt (id.bytes.take 4)
    rwa [List.length_take, id.length_bytes] at hlt
  rw [issuedSecs, UInt32.toNat_ofNat', Nat.mod_eq_of_lt hlt]

theorem toNat_counter (id : ObjectId) :
    id.counter.toNat = BigEndian.value (id.bytes.drop 9) := by
  have hlt := BigEndian.value_lt (id.bytes.drop 9)
  rw [List.length_drop, id.length_bytes] at hlt
  rw [counter, UInt32.toNat_ofNat', Nat.mod_eq_of_lt (Nat.lt_trans hlt (by decide))]

/-- The parts of an id stand one after the other and leave out nothing. -/
theorem bytes_eq_append (id : ObjectId) :
    id.bytes = id.bytes.take 4 ++ (id.process ++ id.bytes.drop 9) := by
  have hback : id.process ++ id.bytes.drop 9 = id.bytes.drop 4 := by
    rw [process, show id.bytes.drop 9 = (id.bytes.drop 4).drop 5 by rw [List.drop_drop],
      List.take_append_drop]
  rw [hback, List.take_append_drop]

/-- **The parts of an id make up its bytes**, each number in as many bytes as its part has. -/
theorem bytes_eq_parts (id : ObjectId) :
    id.bytes = BigEndian.bytes 4 id.issuedSecs.toNat ++
      (id.process ++ BigEndian.bytes 3 id.counter.toNat) := by
  have hsecs : (id.bytes.take 4).length = 4 := by rw [List.length_take, id.length_bytes]; rfl
  have hcounter : (id.bytes.drop 9).length = 3 := by rw [List.length_drop, id.length_bytes]
  have hfront := BigEndian.bytes_value (id.bytes.take 4)
  have hback := BigEndian.bytes_value (id.bytes.drop 9)
  rw [hsecs] at hfront
  rw [hcounter] at hback
  rw [toNat_issuedSecs, toNat_counter, hfront, hback]
  exact bytes_eq_append id

/-! ## Comparing -/

theorem compare_eq_compare_bytes (a b : ObjectId) : compare a b = compare a.bytes b.bytes := rfl

theorem ext_bytes {a b : ObjectId} (h : a.bytes = b.bytes) : a = b := by
  cases a
  cases b
  cases h
  rfl

instance : Std.TransOrd ObjectId where
  eq_swap {a b} := (Std.OrientedOrd.eq_swap : compare a.bytes b.bytes = _)
  isLE_trans {a b c} := @Std.TransOrd.isLE_trans _ _ _ a.bytes b.bytes c.bytes

instance : Std.LawfulEqOrd ObjectId where
  compare_self {a} := (Std.compare_self : compare a.bytes a.bytes = .eq)
  eq_of_compare h := ext_bytes (Std.LawfulEqCmp.eq_of_compare h)

/-- **Ids are ordered by their time, then by their process, then by their counter.** -/
theorem compare_parts (a b : ObjectId) :
    compare a b = (compare a.issuedSecs b.issuedSecs).then
      ((compare a.process b.process).then (compare a.counter b.counter)) := by
  have hsecs : (a.bytes.take 4).length = (b.bytes.take 4).length := by
    rw [List.length_take, List.length_take, a.length_bytes, b.length_bytes]
  have hprocess : a.process.length = b.process.length := by
    rw [process, process, List.length_take, List.length_take, List.length_drop, List.length_drop,
      a.length_bytes, b.length_bytes]
  have hcounter : (a.bytes.drop 9).length = (b.bytes.drop 9).length := by
    rw [List.length_drop, List.length_drop, a.length_bytes, b.length_bytes]
  calc compare a b
    _ = compare (a.bytes.take 4 ++ (a.process ++ a.bytes.drop 9))
          (b.bytes.take 4 ++ (b.process ++ b.bytes.drop 9)) := by
      rw [← bytes_eq_append, ← bytes_eq_append, compare_eq_compare_bytes]
    _ = (compare (a.bytes.take 4) (b.bytes.take 4)).then
          ((compare a.process b.process).then (compare (a.bytes.drop 9) (b.bytes.drop 9))) := by
      rw [compare_append hsecs, compare_append hprocess]
    _ = _ := by
      rw [BigEndian.compare_value hsecs, BigEndian.compare_value hcounter, compare_word,
        compare_word, toNat_issuedSecs, toNat_issuedSecs, toNat_counter, toNat_counter]

theorem compare_hex (a b : ObjectId) : compare a.hex b.hex = compare a b := by
  rw [compare_text, toList_hex, toList_hex, Text.Hex.compare_encode, compare_eq_compare_bytes]

theorem issuedSecs_le_of_isLE {a b : ObjectId} (h : (compare a b).isLE) :
    a.issuedSecs ≤ b.issuedSecs := by
  rw [compare_parts] at h
  exact Std.isLE_compare.mp (Ordering.isLE_left_of_isLE_then h)

/-- Four views of two ids, and one answer. -/
structure ComparesAlike (a b : ObjectId) : Prop where
  text : compare a b = compare a.hex b.hex
  /-- The twelve bytes as one number. -/
  number : compare a b = compare (BigEndian.value a.bytes) (BigEndian.value b.bytes)
  parts : compare a b = (compare a.issuedSecs b.issuedSecs).then
    ((compare a.process b.process).then (compare a.counter b.counter))
  /-- Nothing but the id itself is equal to it. -/
  eq_iff : compare a b = .eq ↔ a.bytes = b.bytes
  /-- And the parts leave nothing of an id open. -/
  bytes_eq_iff : a.bytes = b.bytes ↔
    a.issuedSecs = b.issuedSecs ∧ a.process = b.process ∧ a.counter = b.counter

theorem comparesAlike (a b : ObjectId) : ComparesAlike a b where
  text := (compare_hex a b).symm
  number := BigEndian.compare_value (a.length_bytes.trans b.length_bytes.symm)
  parts := compare_parts a b
  eq_iff := ⟨fun h => congrArg bytes (Std.LawfulEqCmp.eq_of_compare h), fun h => by
    rw [ext_bytes h]
    exact Std.ReflCmp.compare_self⟩
  bytes_eq_iff := by
    constructor
    · intro h
      rw [ext_bytes h]
      exact ⟨rfl, rfl, rfl⟩
    · rintro ⟨hsecs, hprocess, hcounter⟩
      rw [bytes_eq_parts a, bytes_eq_parts b, hsecs, hprocess, hcounter]

/-! ## Sorting -/

theorem pairwise_sort (ids : List ObjectId) :
    (sort ids).Pairwise fun a b => (compare a b).isLE := by
  refine List.pairwise_mergeSort (fun a b c => Std.TransCmp.isLE_trans) (fun a b => ?_) ids
  rw [← Std.OrientedCmp.isGE_eq_isLE (a := a)]
  cases compare a b <;> rfl

/-- Any sorted list of the same ids is the sorted one. -/
theorem eq_sort {ids sorted : List ObjectId} (hperm : sorted.Perm ids)
    (hsorted : sorted.Pairwise fun a b => (compare a b).isLE) : sorted = sort ids := by
  refine List.Perm.eq_of_pairwise (fun a b _ _ hab hba => ?_) hsorted (pairwise_sort ids)
    (hperm.trans (List.mergeSort_perm ids _).symm)
  exact Std.LawfulEqCmp.eq_of_compare (Std.OrientedCmp.isLE_antisymm hab hba)

theorem map_hex_sort (ids : List ObjectId) :
    (sort ids).map hex = (ids.map hex).mergeSort fun s t => (compare s t).isLE := by
  refine List.map_mergeSort fun a _ b _ => ?_
  rw [compare_hex]

/-- What sorting makes of ids. -/
structure SortsAlike (ids : List ObjectId) : Prop where
  /-- No id is lost, and none is added. -/
  perm : (sort ids).Perm ids
  /-- The order in which the ids came does not matter. -/
  anyOrder : ∀ others : List ObjectId, others.Perm ids → sort others = sort ids
  texts : (sort ids).map hex = (ids.map hex).mergeSort fun s t => (compare s t).isLE
  /-- Later ids are not from an earlier time. -/
  rising : ((sort ids).map issuedSecs).Pairwise (· ≤ ·)
  neighbours : ∀ before a b after, sort ids = before ++ a :: b :: after →
    compare a b ≠ .gt ∧ (compare a b = .eq → a.bytes = b.bytes)
  /-- Equal ids have nothing else between them. -/
  together : ∀ before a between b after, sort ids = before ++ a :: (between ++ b :: after) →
    a = b → ∀ id ∈ between, id = a

theorem sortsAlike (ids : List ObjectId) : SortsAlike ids where
  perm := List.mergeSort_perm ids _
  anyOrder others hperm :=
    eq_sort ((List.mergeSort_perm others _).trans hperm) (pairwise_sort others)
  texts := map_hex_sort ids
  rising := List.pairwise_map.mpr ((pairwise_sort ids).imp issuedSecs_le_of_isLE)
  neighbours := by
    intro before a b after hsplit
    have hsorted := pairwise_sort ids
    rw [hsplit, List.pairwise_append] at hsorted
    have hle : (compare a b).isLE := (List.pairwise_cons.mp hsorted.2.1).1 b List.mem_cons_self
    refine ⟨fun hgt => ?_, (comparesAlike a b).eq_iff.mp⟩
    rw [hgt] at hle
    exact nomatch hle
  together := by
    intro before a between b after hsplit hab id hid
    have hsorted := pairwise_sort ids
    rw [hsplit, List.pairwise_append, List.pairwise_cons, List.pairwise_append] at hsorted
    obtain ⟨-, ⟨hfirst, -, -, hlast⟩, -⟩ := hsorted
    have hle := hfirst id (List.mem_append_left _ hid)
    have hge := hlast id hid b List.mem_cons_self
    rw [← hab] at hge
    exact Std.LawfulEqCmp.eq_of_compare (Std.OrientedCmp.isLE_antisymm hge hle)

/-- **Ids have one order.** Two ids compare as their texts do, as their bytes read as one number,
and as their times, processes and counters one after the other, and these parts make up the id. So
sorting ids is sorting their texts, whatever order they came in; times do not go back in the sorted
list, and neighbours in it that compare as equal are the same id. -/
theorem one_order (a b : ObjectId) (ids : List ObjectId) :
    ComparesAlike a b ∧ SortsAlike ids ∧
      a.bytes = BigEndian.bytes 4 a.issuedSecs.toNat ++
        (a.process ++ BigEndian.bytes 3 a.counter.toNat) :=
  ⟨comparesAlike a b, sortsAlike ids, bytes_eq_parts a⟩

/-- A letter comes after a numeral, as ten comes after nine. -/
example :
    let id (secs : UInt8) : ObjectId := { bytes := secs :: List.replicate 11 0, length_bytes := rfl }
    compare (id 0x9f) (id 0xa0) = .lt ∧ compare (id 0x9f).hex (id 0xa0).hex = .lt := by
  decide

end ObjectId
end IdMint

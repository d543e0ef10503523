import IdMint.Proofs.Layout

/-!
# Ids and fields

Four fields, each within its width, are as good as an id whose top bit is not set. Packing them and
taking the id apart again gives the fields back (`Fields.unpack_id`), and every word without its top
bit is the id of the fields that it shows (`Fields.id_ofWord_iff`). A word with its top bit set is
not the id of any fields, but its parts still make it up, side by side and with nothing left over
(`tiles_unpack`).

The fields stand in the order of their weight. So ids are ordered as their fields are, one after the
other like the letters of a word (`Fields.id_lt_id_iff`): what a later field says counts only between
ids that agree in all earlier ones.
-/

namespace IdMint

/-- The parts of a word, each within its width, make up the whole word. -/
structure Parts.Tiles (p : Parts) : Prop where
  msb_lt : p.msb.toNat < 2 ^ 1
  time_lt : p.time.toNat < 2 ^ 41
  dataCenter_lt : p.dataCenter.toNat < 2 ^ 5
  worker_lt : p.worker.toNat < 2 ^ 5
  sequence_lt : p.sequence.toNat < 2 ^ 12
  sum : p.msb.toNat * 2 ^ 63 + p.time.toNat * 2 ^ 22 + p.dataCenter.toNat * 2 ^ 17 +
    p.worker.toNat * 2 ^ 12 + p.sequence.toNat = p.id.toNat

namespace Layout

/-- Whatever the word is: the places of its parts leave no gap and do not overlap. -/
theorem tiles_unpack (id : UInt64) : (unpack id).Tiles := by
  obtain ⟨hmsb, htime, hdataCenter, hworker, hsequence⟩ := toNat_unpack id
  have hid : (unpack id).id.toNat = id.toNat := rfl
  have hlt := id.toNat_lt
  constructor <;> omega

/-- Fields that have room in an id. -/
structure Fields where
  elapsed : UInt64
  dataCenter : UInt8
  worker : UInt8
  sequence : UInt16
  elapsed_lt : elapsed.toNat < 2 ^ 41
  dataCenter_lt : dataCenter.toNat < 2 ^ 5
  worker_lt : worker.toNat < 2 ^ 5
  sequence_lt : sequence.toNat < 2 ^ 12

namespace Fields

def id (f : Fields) : UInt64 := pack f.elapsed f.dataCenter f.worker f.sequence

/-- An id with these fields, as it should look when it is taken apart. -/
def parts (f : Fields) : Parts where
  id := f.id
  msb := 0
  time := f.elapsed
  dataCenter := f.dataCenter.toUInt64
  worker := f.worker.toUInt64
  sequence := f.sequence.toUInt64

/-- The fields as numbers, the most significant first. -/
def numbers (f : Fields) : List Nat :=
  [f.elapsed.toNat, f.dataCenter.toNat, f.worker.toNat, f.sequence.toNat]

/-- The fields that a word shows below its top bit. Each part is put into the width in which it is
packed, which has room for it. -/
def ofWord (id : UInt64) : Fields where
  elapsed := (unpack id).time
  dataCenter := (unpack id).dataCenter.toUInt8
  worker := (unpack id).worker.toUInt8
  sequence := (unpack id).sequence.toUInt16
  elapsed_lt := (tiles_unpack id).time_lt
  dataCenter_lt := by
    rw [UInt64.toNat_toUInt8]
    exact Nat.lt_of_le_of_lt (Nat.mod_le _ _) (tiles_unpack id).dataCenter_lt
  worker_lt := by
    rw [UInt64.toNat_toUInt8]
    exact Nat.lt_of_le_of_lt (Nat.mod_le _ _) (tiles_unpack id).worker_lt
  sequence_lt := by
    rw [UInt64.toNat_toUInt16]
    exact Nat.lt_of_le_of_lt (Nat.mod_le _ _) (tiles_unpack id).sequence_lt

variable (f g : Fields)

theorem toNat_id :
    f.id.toNat = f.elapsed.toNat * 2 ^ 22 + (f.dataCenter.toNat * 2 ^ 5 + f.worker.toNat) * 2 ^ 12
      + f.sequence.toNat :=
  toNat_pack f.elapsed_lt f.dataCenter_lt f.worker_lt f.sequence_lt

/-- **An id shows the fields that it was packed from.** -/
theorem unpack_id : unpack f.id = f.parts := by
  obtain ⟨hmsb, htime, hdataCenter, hworker, hsequence⟩ := toNat_unpack f.id
  have he := f.elapsed_lt
  have hd := f.dataCenter_lt
  have hw := f.worker_lt
  have hq := f.sequence_lt
  rw [f.toNat_id] at hmsb htime hdataCenter hworker hsequence
  simp only [unpack, parts, Parts.mk.injEq, ← UInt64.toNat_inj, true_and, UInt64.toNat_zero,
    UInt8.toNat_toUInt64, UInt16.toNat_toUInt64]
  refine ⟨hmsb.trans ?_, htime.trans ?_, hdataCenter.trans ?_, hworker.trans ?_,
    hsequence.trans ?_⟩ <;> omega

theorem id_lt_two_pow : f.id.toNat < 2 ^ 63 := by
  have hd := f.dataCenter_lt
  have hw := f.worker_lt
  have hq := f.sequence_lt
  have he := f.elapsed_lt
  rw [f.toNat_id]
  omega

/-- The narrower widths in which parts are packed change none of them. -/
theorem numbers_ofWord (id : UInt64) :
    (ofWord id).numbers = [(unpack id).time.toNat, (unpack id).dataCenter.toNat,
      (unpack id).worker.toNat, (unpack id).sequence.toNat] := by
  have htiles := tiles_unpack id
  have hd := htiles.dataCenter_lt
  have hw := htiles.worker_lt
  have hq := htiles.sequence_lt
  simp only [numbers, ofWord, UInt64.toNat_toUInt8, UInt64.toNat_toUInt16, List.cons.injEq,
    and_true, true_and]
  refine ⟨?_, ?_, ?_⟩ <;> apply Nat.mod_eq_of_lt <;> omega

/-- The fields of a word make up the word but for its top bit. -/
theorem toNat_id_ofWord (id : UInt64) :
    (unpack id).msb.toNat * 2 ^ 63 + (ofWord id).id.toNat = id.toNat := by
  have hnumbers := numbers_ofWord id
  simp only [numbers, List.cons.injEq, and_true] at hnumbers
  obtain ⟨htime, hdataCenter, hworker, hsequence⟩ := hnumbers
  rw [(ofWord id).toNat_id, htime, hdataCenter, hworker, hsequence]
  refine Eq.trans ?_ (tiles_unpack id).sum
  generalize (unpack id).msb.toNat = msb
  omega

/-- **A word without its top bit is the id of its fields**, and only such a word is. -/
theorem id_ofWord_iff (id : UInt64) : (ofWord id).id = id ↔ (unpack id).msb = 0 := by
  have hword := toNat_id_ofWord id
  constructor
  · intro hid
    rw [hid] at hword
    apply UInt64.toNat_inj.mp
    rw [UInt64.toNat_zero]
    omega
  · intro hmsb
    rw [hmsb, UInt64.toNat_zero] at hword
    apply UInt64.toNat_inj.mp
    omega

/-- **Ids are ordered as their fields are.** A field outweighs all that stand below it, because they
are within their widths. -/
theorem id_lt_id_iff : f.id < g.id ↔ f.numbers < g.numbers := by
  have hfd := f.dataCenter_lt
  have hfw := f.worker_lt
  have hfq := f.sequence_lt
  have hgd := g.dataCenter_lt
  have hgw := g.worker_lt
  have hgq := g.sequence_lt
  rw [UInt64.lt_iff_toNat_lt, f.toNat_id, g.toNat_id]
  simp only [numbers, List.cons_lt_cons_iff, List.not_lt_nil, and_false, or_false]
  omega

end Fields
end Layout
end IdMint

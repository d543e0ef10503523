import IdMint.Proofs.Generator.Issue
import IdMint.Proofs.Generator.Readings
import IdMint.Proofs.Layout.Fields

/-!
# What an id says of its call

Whoever takes an id apart learns when it was issued, by which machine, and as which id of its
millisecond. That all of it is true is shown in two halves. An id is the number of some progress, and
its parts are that progress again (`Progress.Issued.unpack`); this is arithmetic, and it holds
because every field is within its width. And the progress is the one that the call left behind, whose
millisecond is the last reading that the call took (`Generator.getLast?_taken`).

An id is never negative as a signed word, but it can be zero, and zero is a true id: the first one of
the epoch's own millisecond from the machine with both marks zero. It is the only one that is not
positive (`TellsTruth.pos_iff`).
-/

namespace IdMint

open Layout (unpack toInt_toInt64)

namespace Progress

variable {s : Settings} {q : Progress} {id : UInt64}

/-- **An id is the id of the progress and the marks that it was made of.** -/
theorem Issued.exists_fields (h : q.Issued s) (hs : s.Valid) (hid : (id.toNat : Int) = s.place q) :
    ∃ f : Layout.Fields, f.id = id ∧ (f.elapsed.toNat : Int) = q.lastMs.toInt - s.epochMs.toInt ∧
      f.dataCenter = s.dataCenter ∧ f.worker = s.worker ∧ f.sequence = q.sequence := by
  -- The elapsed time as a natural number, so that the id is a sum of four of them.
  obtain ⟨elapsed, helapsed⟩ : ∃ n : Nat, q.lastMs.toInt - s.epochMs.toInt = n :=
    Int.eq_ofNat_of_zero_le (by have := h.epoch_le; omega)
  have hlimit := h.lt_limit
  have hlt : elapsed < 2 ^ 41 := by omega
  have hword : (UInt64.ofNat elapsed).toNat = elapsed := by
    rw [UInt64.toNat_ofNat']
    omega
  let f : Layout.Fields :=
    { elapsed := UInt64.ofNat elapsed, dataCenter := s.dataCenter, worker := s.worker,
      sequence := q.sequence, elapsed_lt := by rwa [hword], dataCenter_lt := hs.dataCenter_lt,
      worker_lt := hs.worker_lt, sequence_lt := h.sequence_lt }
  refine ⟨f, ?_, ?_, rfl, rfl, rfl⟩
  · have hplace : (id.toNat : Int) = elapsed * 2 ^ 22 +
        (s.dataCenter.toNat * 2 ^ 5 + s.worker.toNat : Nat) * 2 ^ 12 + q.sequence.toNat := by
      rw [hid, Settings.place, Settings.machine, helapsed]
    have hsum : f.id.toNat = elapsed * 2 ^ 22 +
        (s.dataCenter.toNat * 2 ^ 5 + s.worker.toNat) * 2 ^ 12 + q.sequence.toNat := by
      rw [f.toNat_id, hword]
    apply UInt64.toNat_inj.mp
    omega
  · rw [hword, helapsed]

theorem Issued.lt_two_pow (h : q.Issued s) (hs : s.Valid) (hid : (id.toNat : Int) = s.place q) :
    id.toNat < 2 ^ 63 := by
  obtain ⟨f, rfl, -⟩ := h.exists_fields hs hid
  exact f.id_lt_two_pow

/-- **The parts of an id are the progress and the marks that it was made of.** -/
theorem Issued.unpack (h : q.Issued s) (hs : s.Valid) (hid : (id.toNat : Int) = s.place q) :
    (unpack id).msb = 0 ∧
      ((unpack id).time.toNat : Int) = q.lastMs.toInt - s.epochMs.toInt ∧
      (unpack id).dataCenter = s.dataCenter.toUInt64 ∧ (unpack id).worker = s.worker.toUInt64 ∧
      (unpack id).sequence = q.sequence.toUInt64 := by
  obtain ⟨f, rfl, htime, hdataCenter, hworker, hsequence⟩ := h.exists_fields hs hid
  rw [f.unpack_id, ← hdataCenter, ← hworker, ← hsequence]
  exact ⟨rfl, htime, rfl, rfl, rfl⟩

/-- The time of an id and the epoch make the millisecond that it was issued for, with no overflow. -/
theorem Issued.issuedMs (h : q.Issued s) (hs : s.Valid) (hid : (id.toNat : Int) = s.place q) :
    (Layout.unpack id).issuedMs s.epochMs = .ok q.lastMs := by
  obtain ⟨-, htime, -⟩ := h.unpack hs hid
  have hlimit := h.lt_limit
  rw [Parts.issuedMs, Checked.add_eq_ok_iff, toInt_toInt64 (by omega), htime]
  omega

end Progress

namespace Generator

/-- An id says what happened: `g` issued it, is `after` since, and took these readings for it. -/
structure TellsTruth (g after : Generator) (taken : List Reading) (id : UInt64) : Prop where
  msb : (unpack id).msb = 0
  lt_two_pow : id.toNat < 2 ^ 63
  /-- As a signed word it is the same number. -/
  toInt64 : id.toInt64.toInt = id.toNat
  nonneg : 0 ≤ id.toInt64
  pos_iff : 0 < id.toInt64 ↔
    ¬ (after.progress.lastMs = g.settings.epochMs ∧ g.settings.dataCenter = 0 ∧
      g.settings.worker = 0 ∧ after.progress.sequence = 0)
  dataCenter : (unpack id).dataCenter = g.settings.dataCenter.toUInt64
  worker : (unpack id).worker = g.settings.worker.toUInt64
  sequence : (unpack id).sequence = after.progress.sequence.toUInt64
  issuedMs : (unpack id).issuedMs g.settings.epochMs = .ok after.progress.lastMs
  lastReading : taken.getLast? = some (.time after.progress.lastMs)

theorem pos_iff_of_issued {s : Settings} {q : Progress} {id : UInt64} (h : q.Issued s)
    (hs : s.Valid) (hid : (id.toNat : Int) = s.place q) :
    0 < id.toInt64 ↔
      ¬ (q.lastMs = s.epochMs ∧ s.dataCenter = 0 ∧ s.worker = 0 ∧ q.sequence = 0) := by
  have hepoch := h.epoch_le
  rw [Int64.lt_iff_toInt_lt, toInt_toInt64 (h.lt_two_pow hs hid), Int64.toInt_zero,
    ← Int64.toInt_inj, ← UInt8.toNat_inj, ← UInt8.toNat_inj, ← UInt16.toNat_inj, hid,
    UInt8.toNat_zero, UInt16.toNat_zero]
  unfold Settings.place Settings.machine
  omega

/-- **An id tells the truth**, whatever the call that issued it had to wait for. -/
theorem id_tells_truth {g : Generator} (hg : g.Reached) {supply : List Reading} {id : UInt64}
    (h : (g.call supply).1.outcome = .ok id) :
    TellsTruth g (g.call supply).2 ((g.call supply).1.taken supply) id := by
  have hissues := Issues.ofCall hg.sound h
  have hs := hg.sound.settings
  have hq := hissues.issued
  have hid := hissues.toNat_id
  obtain ⟨hmsb, -, hdc, hwk, hseq⟩ := hq.unpack hs hid
  have hlt := hq.lt_two_pow hs hid
  refine ⟨hmsb, hlt, toInt_toInt64 hlt, ?_, pos_iff_of_issued hq hs hid, hdc, hwk, hseq,
    hq.issuedMs hs hid, getLast?_taken g supply h⟩
  rw [Int64.le_iff_toInt_le, toInt_toInt64 hlt, Int64.toInt_zero]
  omega

/-- A call that waits out a step back of two milliseconds, and says so of the last of its readings. -/
theorem id_tells_truth_after_wait :
    let s : Settings := { epochMs := 1000, dataCenter := 3, worker := 7, policy := .wait 5 }
    let g : Generator := { settings := s, progress := { lastMs := 3000, sequence := 0 } }
    let supply : List Reading := [.time 2998, .time 2999, .time 3000, .time 9000]
    (g.call supply).1.outcome = .ok 8389029889 ∧ (g.call supply).1.reads = 3 ∧
      TellsTruth g (g.call supply).2 ((g.call supply).1.taken supply) 8389029889 := by
  have built : (({ epochMs := 1000, dataCenter := 3, worker := 7, policy := .wait 5 } :
      Blueprint).build [.time 2000]).outcome = .ok { settings :=
        { epochMs := 1000, dataCenter := 3, worker := 7, policy := .wait 5 } } := by rfl
  have reached := Reached.called [.time 3000] (.built built)
  exact ⟨by rfl, by rfl, id_tells_truth reached (by rfl)⟩

/-- Zero is an id, and not a positive one. -/
theorem id_zero_issued :
    let g : Generator := { settings := { epochMs := 5000 } }
    g.Reached ∧ (g.call [.time 5000]).1.outcome = .ok 0 ∧ ¬ 0 < (0 : UInt64).toInt64 := by
  have built : (({ epochMs := 5000 } : Blueprint).build [.time 5000]).outcome =
      .ok { settings := { epochMs := 5000 } } := by rfl
  exact ⟨.built built, by rfl, by decide⟩

end Generator
end IdMint

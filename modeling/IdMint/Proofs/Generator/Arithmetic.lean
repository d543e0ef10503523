import IdMint.Proofs.Generator.Ending
import IdMint.Proofs.Generator.Working

/-!
# The arithmetic of a call

Nothing in a call asks whether an operation is safe. Each of them is safe for a reason that lies
elsewhere: the settings were checked when the generator was built, the sequence number is that of an
id, a reading before the epoch is turned down before the epoch is taken from it, and the time limit is
asked for before an id is packed. So for a generator that was built every operation is exact
(`Working.exact_stamp`, `Working.exact_accept`), whatever the clock reads.

There is one exception. How far a first reading is behind is computed before anyone asks how far that
may be (`Working.exact_or_drift`). It overflows for a reading that is far enough behind, and nothing
else in a call ever does (`Generator.overflows_iff`).
-/

namespace IdMint

namespace Working

open Generator (Phase)

variable {s : Settings} {p : Progress} {phase : Phase} {nowMs : Int64} {sequence : UInt16}
  {op : Operation}

/-! ## One turn -/

/-- Fields within their widths are packed without a loss. -/
theorem exact_pack {elapsedMs : Int64} {dataCenter worker : UInt8} (he : 0 ≤ elapsedMs.toInt)
    (hlt : elapsedMs.toInt < 2 ^ 41) (hd : dataCenter.toNat < 2 ^ 5) (hw : worker.toNat < 2 ^ 5)
    (hs : sequence.toNat < 2 ^ 12)
    (hop : op ∈ (pack elapsedMs dataCenter worker sequence).operations) : op.Exact := by
  have hword : (elapsedMs.toUInt64.toNat : Int) = elapsedMs.toInt :=
    Layout.toNat_toUInt64_of_nonneg he
  have helapsed : elapsedMs.toUInt64.toNat < 2 ^ 41 := by omega
  rw [← UInt8.toNat_toUInt64] at hd hw
  rw [← UInt16.toNat_toUInt64] at hs
  have hoperations : (pack elapsedMs dataCenter worker sequence).operations =
      [.unsign elapsedMs, .shift elapsedMs.toUInt64 Layout.timeShift,
        .shift dataCenter.toUInt64 Layout.dataCenterShift,
        .shift worker.toUInt64 Layout.workerShift,
        .join [elapsedMs.toUInt64 <<< UInt64.ofNat Layout.timeShift,
          dataCenter.toUInt64 <<< UInt64.ofNat Layout.dataCenterShift,
          worker.toUInt64 <<< UInt64.ofNat Layout.workerShift, sequence.toUInt64]] := rfl
  simp only [hoperations, List.mem_cons, List.not_mem_nil, or_false] at hop
  rcases hop with rfl | rfl | rfl | rfl | rfl
  · exact hword
  · exact ⟨by decide, Layout.mul_two_pow_lt helapsed (by decide)⟩
  · exact ⟨by decide, Layout.mul_two_pow_lt hd (by decide)⟩
  · exact ⟨by decide, Layout.mul_two_pow_lt hw (by decide)⟩
  · exact Layout.pairwise_and_eq_zero helapsed hd hw hs

/-- The time since the epoch is a word and not negative, and it is packed only while it has room. -/
theorem exact_stamp (hs : s.Valid) (hepoch : s.epochMs.toInt ≤ nowMs.toInt)
    (hsequence : sequence.toNat < 2 ^ 12) (hop : op ∈ (stamp s nowMs sequence).operations) :
    op.Exact := by
  have hnonneg := hs.epoch_nonneg
  rcases mem_operations_bind.mp hop with helapse | ⟨elapsedMs, hsub, hrest⟩
  · obtain rfl : op = .elapse nowMs s.epochMs := List.mem_singleton.mp helapse
    exact ⟨by omega, Checked.fits_sub_of_nonneg (by omega) hnonneg⟩
  · have helapsed : elapsedMs.toInt = nowMs.toInt - s.epochMs.toInt :=
      Checked.sub_eq_ok_iff.mp hsub
    split at hrest
    · simp [operations_pure] at hrest
    · rename_i hlimit
      rw [Int64.le_iff_toInt_le, Layout.toInt_timeLimit] at hlimit
      rcases mem_operations_bind.mp hrest with hpack | ⟨id, -, hpure⟩
      · exact exact_pack (by omega) (by omega) hs.dataCenter_lt hs.worker_lt hsequence hpack
      · simp [operations_pure] at hpure

theorem mem_operations_stamp {events : List Event}
    (h : op ∈ (do return (events, ← stamp s nowMs sequence) : Working _).operations) :
    op ∈ (stamp s nowMs sequence).operations := by
  rcases mem_operations_bind.mp h with hstamp | ⟨decision, -, hpure⟩
  · exact hstamp
  · simp [operations_pure] at hpure

theorem exact_accept (hs : s.Valid) (hp : p.Sound s) (hop : op ∈ (accept s p nowMs).operations) :
    op.Exact := by
  unfold accept at hop
  split at hop
  · simp [operations_pure] at hop
  · rename_i hearly
    have hepoch : s.epochMs.toInt ≤ nowMs.toInt := by
      rw [Int64.lt_iff_toInt_lt] at hearly
      omega
    split at hop
    · rcases mem_operations_bind.mp hop with hincrement | ⟨next, -, hrest⟩
      · obtain rfl : op = .increment p.sequence := List.mem_singleton.mp hincrement
        exact Nat.lt_trans (Nat.succ_lt_succ hp.sequence_lt) (by decide)
      · dsimp only at hrest
        split at hrest
        · simp [operations_pure] at hrest
        · -- Whatever the next number is, the mask has put it within its width.
          refine exact_stamp hs hepoch ?_ (mem_operations_stamp hrest)
          rw [Generator.toNat_and_maxSequence]
          exact Nat.mod_lt _ (by decide)
    · exact exact_stamp hs hepoch (by decide) (mem_operations_stamp hop)

theorem mem_operations_regress :
    op ∈ (regress s p nowMs).operations ↔ op = .drift p.lastMs nowMs := by
  rw [regress, mem_operations_bind]
  constructor
  · rintro (hdrift | ⟨driftMs, -, hrest⟩)
    · exact List.mem_singleton.mp hdrift
    · split at hrest <;> simp [operations_pure] at hrest
  · rintro rfl
    exact .inl List.mem_cons_self

/-- **All that a turn computes is exact, but for how far a first reading is behind.** -/
theorem exact_or_drift (hs : s.Valid) (hp : p.Sound s) (hpast : phase.Past s p)
    (hop : op ∈ (respond s p phase nowMs).operations) :
    op.Exact ∨ phase = .entry ∧ op = .drift p.lastMs nowMs := by
  cases phase with
  | entry =>
    rw [respond] at hop
    split at hop
    · exact .inr ⟨rfl, mem_operations_regress.mp hop⟩
    · exact .inl (exact_accept hs hp hop)
  | catchUp =>
    rw [respond] at hop
    split at hop
    · simp [operations_pure] at hop
    · exact .inl (exact_accept hs hp hop)
  | nextMillisecond =>
    rw [respond] at hop
    split at hop
    · simp [operations_pure] at hop
    · rename_i hnotPast
      have hepoch := hpast rfl
      rw [Int64.le_iff_toInt_le] at hnotPast
      exact .inl (exact_stamp hs (by omega) (by decide) (mem_operations_stamp hop))

theorem drift_mem_operations (hbehind : nowMs.toInt < p.lastMs.toInt) :
    .drift p.lastMs nowMs ∈ (respond s p .entry nowMs).operations := by
  rw [respond, if_pos (Int64.lt_iff_toInt_lt.mpr hbehind)]
  exact mem_operations_regress.mpr rfl

end Working

/-! ## One call -/

namespace Generator

variable {s : Settings} {p : Progress} {phase : Phase} {supply : List Reading} {op : Operation}

theorem exact_or_drift_of_mem (hs : s.Valid) (hp : p.Sound s) (hpast : phase.Past s p)
    (hop : op ∈ operationsFrom s p phase supply) :
    op.Exact ∨
      phase = .entry ∧ ∃ ms rest, supply = .time ms :: rest ∧ op = .drift p.lastMs ms := by
  induction phase, supply using answer.induct s p with
  | case1 phase => simp [operationsFrom] at hop
  | case2 phase f rest => simp [operationsFrom] at hop
  | case3 phase nowMs rest events outcome hturn =>
    rw [operationsFrom_of_finish hturn] at hop
    rcases Working.exact_or_drift hs hp hpast hop with hexact | ⟨hentry, hdrift⟩
    · exact .inl hexact
    · exact .inr ⟨hentry, nowMs, rest, rfl, hdrift⟩
  | case4 phase nowMs rest events phase' hturn ih =>
    rw [operationsFrom_of_ask hturn, List.mem_append] at hop
    rcases hop with hnow | hlater
    · rcases Working.exact_or_drift hs hp hpast hnow with hexact | ⟨hentry, hdrift⟩
      · exact .inl hexact
      · exact .inr ⟨hentry, nowMs, rest, rfl, hdrift⟩
    · rcases ih (hpast.ofAsk hturn) hlater with hexact | ⟨hentry, -⟩
      · exact .inl hexact
      · -- The call waits now, and a wait never asks how far the clock is behind.
        exact absurd hentry (waiting_of_ask hturn)

variable {g : Generator}

/-- **All that a call computes is exact, but for how far its first reading is behind.** -/
theorem exact_or_drift_of_call (hg : g.Sound) (hop : op ∈ g.operations supply) :
    op.Exact ∨ ∃ ms, ((g.call supply).1.taken supply).head? = some (.time ms) ∧
      op = .drift g.progress.lastMs ms := by
  unfold operations at hop
  split at hop
  · simp at hop
  · rename_i hlive
    rw [Bool.not_eq_true] at hlive
    rcases exact_or_drift_of_mem hg.settings hg.progress (Phase.past_entry _ _) hop with
      hexact | ⟨-, ms, rest, hsupply, hdrift⟩
    · exact .inl hexact
    · exact .inr ⟨ms, head?_taken_iff.mpr ⟨hlive, rest, hsupply⟩, hdrift⟩

theorem Sound.neg_one_le (hg : g.Sound) : -1 ≤ g.progress.lastMs.toInt := by
  have hepoch := hg.settings.epoch_nonneg
  rcases hg.progress with hnew | hissued
  · rw [hnew]
    decide
  · have hle := hissued.epoch_le
    omega

/-- **The one operation that overflows is the distance of a first reading**, and it does so exactly
if that reading is too far behind. -/
theorem overflows_iff (hg : g.Sound) :
    op ∈ g.operations supply ∧ op.Overflows ↔
      ∃ ms, ((g.call supply).1.taken supply).head? = some (.time ms) ∧
        ms.toInt < g.progress.lastMs.toInt - Int64.maxValue.toInt ∧
        op = .drift g.progress.lastMs ms := by
  constructor
  · rintro ⟨hop, hoverflows⟩
    rcases exact_or_drift_of_call hg hop with hexact | ⟨ms, hfirst, rfl⟩
    · exact absurd hoverflows hexact.not_overflows
    · exact ⟨ms, hfirst, (Checked.not_fits_sub_iff hg.neg_one_le).mp hoverflows, rfl⟩
  · rintro ⟨ms, hfirst, hfar, rfl⟩
    refine ⟨?_, (Checked.not_fits_sub_iff hg.neg_one_le).mpr hfar⟩
    obtain ⟨hlive, rest, rfl⟩ := head?_taken_iff.mp hfirst
    have hbehind : ms.toInt < g.progress.lastMs.toInt := by
      have hmax : Int64.maxValue.toInt = 9223372036854775807 := rfl
      omega
    simp only [operations, hlive, Bool.false_eq_true, if_false, operationsFrom]
    exact List.mem_append_left _ (Working.drift_mem_operations hbehind)

end Generator
end IdMint

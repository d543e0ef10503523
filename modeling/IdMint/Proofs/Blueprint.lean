import Mathlib.Algebra.Group.Int.Defs
import Mathlib.Algebra.Group.Nat.Defs
import IdMint.Blueprint.Basic

/-!
# What a blueprint guarantees of its generator

A generator never looks at its settings again once it is built, and everything that is true of its
ids rests on what `Blueprint.build` has checked. `Settings.Valid` is that guarantee. It is said of
the settings and not of the blueprint, which a generator does not keep.

`validate_eq_ok_iff` says the other half as well: nothing that would make valid settings is refused,
and no number is changed on its way into the narrower field.
-/

namespace IdMint

/-- What is true of the settings of every generator. -/
structure Settings.Valid (s : Settings) : Prop where
  epoch_nonneg : 0 ≤ s.epochMs.toInt
  dataCenter_lt : s.dataCenter.toNat < 2 ^ 5
  worker_lt : s.worker.toNat < 2 ^ 5

/-- The two marks of a machine as one number. -/
def Settings.machine (s : Settings) : Nat := s.dataCenter.toNat * 2 ^ 5 + s.worker.toNat

theorem Settings.Valid.machine_lt {s : Settings} (h : s.Valid) : s.machine < 2 ^ 10 := by
  have hd := h.dataCenter_lt
  have hw := h.worker_lt
  unfold Settings.machine
  omega

/-- Different marks make different machines, because no worker reaches into the data center. -/
theorem Settings.Valid.machine_inj {s t : Settings} (hs : s.Valid) (ht : t.Valid)
    (h : s.machine = t.machine) : (s.dataCenter, s.worker) = (t.dataCenter, t.worker) := by
  have hsw := hs.worker_lt
  have htw := ht.worker_lt
  unfold Settings.machine at h
  have hd : s.dataCenter = t.dataCenter := UInt8.toNat_inj.mp (by omega)
  have hw : s.worker = t.worker := UInt8.toNat_inj.mp (by omega)
  rw [hd, hw]

namespace Blueprint

/-! ## The checks -/

/-- A mark is the number given, for the numbers in its range and no others. -/
theorem mark?_eq_some_iff {largest given : Int64} {mark : UInt8} (hl : largest.toInt < 256) :
    mark? largest given = some mark ↔
      (mark.toNat : Int) = given.toInt ∧ given.toInt ≤ largest.toInt := by
  unfold mark?
  simp only [Int64.le_iff_toInt_le, Int64.toInt_zero]
  split
  · rename_i h
    have hn : (UInt8.ofNat given.toInt.toNat).toNat = given.toInt.toNat := by
      rw [UInt8.toNat_ofNat']
      omega
    rw [Option.some.injEq, ← UInt8.toNat_inj, hn]
    omega
  · rename_i h
    constructor
    · intro hq
      exact nomatch hq
    · rintro ⟨hm, hle⟩
      exact absurd ⟨by omega, hle⟩ h

theorem validate_eq_ok_iff {b : Blueprint} {nowMs : Int64} {s : Settings} :
    b.validate nowMs = .ok s ↔
      b.epochMs.toInt ≤ nowMs.toInt ∧
      ((s.dataCenter.toNat : Int) = b.dataCenter.toInt ∧ b.dataCenter.toInt ≤ 31) ∧
      ((s.worker.toNat : Int) = b.worker.toInt ∧ b.worker.toInt ≤ 31) ∧
      s.epochMs = b.epochMs ∧ s.policy = b.policy := by
  have hdc (m : UInt8) : mark? Settings.maxDataCenter b.dataCenter = some m ↔
      (m.toNat : Int) = b.dataCenter.toInt ∧ b.dataCenter.toInt ≤ 31 :=
    mark?_eq_some_iff (by decide)
  have hwk (m : UInt8) : mark? Settings.maxWorker b.worker = some m ↔
      (m.toNat : Int) = b.worker.toInt ∧ b.worker.toInt ≤ 31 :=
    mark?_eq_some_iff (by decide)
  simp only [← hdc, ← hwk]
  unfold validate
  by_cases hepoch : nowMs < b.epochMs
  · have hlt := Int64.lt_iff_toInt_lt.mp hepoch
    rw [if_pos hepoch]
    exact ⟨fun h => (nomatch h), fun h => absurd h.1 (by omega)⟩
  · have hle : b.epochMs.toInt ≤ nowMs.toInt := by
      rw [Int64.lt_iff_toInt_lt] at hepoch
      omega
    rw [if_neg hepoch]
    obtain ⟨epochMs, dataCenter, worker, policy⟩ := s
    cases hd : mark? Settings.maxDataCenter b.dataCenter with
    | none => simp
    | some d =>
      cases hw : mark? Settings.maxWorker b.worker with
      | none => simp
      | some w =>
        simp only [Except.ok.injEq, Settings.mk.injEq, Option.some.injEq]
        constructor
        · rintro ⟨rfl, rfl, rfl, rfl⟩
          exact ⟨hle, rfl, rfl, rfl, rfl⟩
        · rintro ⟨-, rfl, rfl, rfl, rfl⟩
          exact ⟨rfl, rfl, rfl, rfl⟩

/-! ## A generator that was built -/

/-- Building takes one reading, at a time that the epoch is not ahead of, and gives a new generator
with the settings that were checked against it. -/
theorem exists_validate_of_build {b : Blueprint} {supply : List Reading} {g : Generator}
    (h : (b.build supply).outcome = .ok g) :
    ∃ nowMs rest s, supply = .time nowMs :: rest ∧ 0 ≤ b.epochMs.toInt ∧
      b.validate nowMs = .ok s ∧ g = { settings := s, clock := b.clock } ∧
      (b.build supply).reads = 1 := by
  unfold build at h ⊢
  split at h
  · exact nomatch h
  · rename_i hepoch
    have hnonneg : 0 ≤ b.epochMs.toInt := by
      rw [Int64.lt_iff_toInt_lt, Int64.toInt_zero] at hepoch
      omega
    cases supply with
    | nil => exact nomatch h
    | cons reading rest =>
      cases reading with
      | fault f => exact nomatch h
      | time nowMs =>
        cases hv : b.validate nowMs with
        | error cause =>
          simp only [hv] at h
          exact nomatch h
        | ok s =>
          simp only [hv, Except.ok.injEq] at h
          exact ⟨nowMs, rest, s, rfl, hnonneg, hv, h.symm, by simp only [hepoch, if_false, hv]⟩

/-- **Building either gives a generator that has issued nothing, with valid settings, or gives
none.** -/
theorem build_ok {b : Blueprint} {supply : List Reading} {g : Generator}
    (h : (b.build supply).outcome = .ok g) :
    g.settings.Valid ∧ g.progress = {} ∧ g.poisoned = false := by
  obtain ⟨nowMs, rest, s, -, hnonneg, hv, rfl, -⟩ := exists_validate_of_build h
  obtain ⟨-, ⟨hd, hd'⟩, ⟨hw, hw'⟩, he, -⟩ := validate_eq_ok_iff.mp hv
  have hvalid : s.Valid := ⟨by rw [he]; exact hnonneg, by omega, by omega⟩
  exact ⟨hvalid, rfl, rfl⟩

end Blueprint
end IdMint

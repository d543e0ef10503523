import IdMint.Proofs.Blueprint

/-!
# Which blueprints are built

A blueprint is built at a time exactly if its epoch is not negative and not ahead of that time, and
its two marks are in range (`Buildable`). There is nothing else that a generator could be refused
for, and nothing that is let through and put right: the numbers of the generator are the numbers that
were given, the marks in a narrower word that has room for them.

Several things may be wrong with a blueprint at once, and then the first of them is reported, in the
order of `requirements`. The order is also the reason why the clock may not be asked at all. A
negative epoch is wrong at any time, and it comes first; everything else is judged by one reading.
-/

namespace IdMint
namespace Blueprint

/-! ## Requirements -/

/-- Something that a blueprint has to meet, and the cause to report if it does not. -/
structure Requirement where
  met : Bool
  cause : MintError

/-- What is required of a blueprint at a time, the first to be reported first. -/
def requirements (b : Blueprint) (nowMs : Int64) : List Requirement :=
  [{ met := 0 ≤ b.epochMs.toInt, cause := .epochNegative b.epochMs },
   { met := b.epochMs.toInt ≤ nowMs.toInt, cause := .epochAhead b.epochMs nowMs },
   { met := 0 ≤ b.dataCenter.toInt ∧ b.dataCenter.toInt ≤ 31
     cause := .dataCenterOutOfRange b.dataCenter },
   { met := 0 ≤ b.worker.toInt ∧ b.worker.toInt ≤ 31
     cause := .workerOutOfRange b.worker }]

/-- The first requirement that is not met. -/
def firstFault? (b : Blueprint) (nowMs : Int64) : Option MintError :=
  ((b.requirements nowMs).find? fun r => !r.met).map Requirement.cause

structure Buildable (b : Blueprint) (nowMs : Int64) : Prop where
  epoch_nonneg : 0 ≤ b.epochMs.toInt
  epoch_le : b.epochMs.toInt ≤ nowMs.toInt
  dataCenter : 0 ≤ b.dataCenter.toInt ∧ b.dataCenter.toInt ≤ 31
  worker : 0 ≤ b.worker.toInt ∧ b.worker.toInt ≤ 31

variable {b : Blueprint} {nowMs : Int64} {cause : MintError}

theorem firstFault?_eq_none_iff : b.firstFault? nowMs = none ↔ b.Buildable nowMs := by
  simp only [firstFault?, Option.map_eq_none_iff, List.find?_eq_none, requirements,
    List.forall_mem_cons, decide_eq_true_eq, Bool.not_eq_true, Bool.not_eq_false']
  constructor
  · rintro ⟨hnonneg, hle, hdataCenter, hworker, -⟩
    exact ⟨hnonneg, hle, hdataCenter, hworker⟩
  · rintro ⟨hnonneg, hle, hdataCenter, hworker⟩
    exact ⟨hnonneg, hle, hdataCenter, hworker, by simp⟩

/-! ## Refusals -/

theorem mark?_eq_none {largest given : Int64}
    (h : ¬ (0 ≤ given.toInt ∧ given.toInt ≤ largest.toInt)) : mark? largest given = none := by
  rw [mark?, if_neg]
  rwa [Int64.le_iff_toInt_le, Int64.le_iff_toInt_le, Int64.toInt_zero]

theorem exists_mark? {largest given : Int64} (hl : largest.toInt < 256)
    (h : 0 ≤ given.toInt ∧ given.toInt ≤ largest.toInt) : ∃ mark, mark? largest given = some mark := by
  refine ⟨UInt8.ofNat given.toInt.toNat, (mark?_eq_some_iff hl).mpr ⟨?_, h.2⟩⟩
  rw [UInt8.toNat_ofNat']
  omega

/-- A negative epoch is refused before the clock is asked. -/
theorem build_of_negative (h : b.epochMs.toInt < 0) (supply : List Reading) :
    b.build supply = { outcome := .error (.refused (.epochNegative b.epochMs)) } := by
  have hneg : b.epochMs < 0 := by rwa [Int64.lt_iff_toInt_lt, Int64.toInt_zero]
  unfold build
  rw [if_pos hneg]

/-- Any other epoch is looked at with one reading, and everything else with it. -/
theorem build_of_nonneg (h : 0 ≤ b.epochMs.toInt) (nowMs : Int64) (rest : List Reading) :
    b.build (.time nowMs :: rest) =
      match b.validate nowMs with
      | .error cause => { outcome := .error (.refused cause), reads := 1 }
      | .ok settings =>
        { outcome := .ok { settings, clock := b.clock }
          events := [.created settings]
          reads := 1 } := by
  have hnot : ¬ b.epochMs < 0 := by
    rw [Int64.lt_iff_toInt_lt, Int64.toInt_zero]
    omega
  unfold build
  exact if_neg hnot

/-- With the epoch in order, validation finds the first fault there is. -/
theorem validate_of_firstFault? (hnonneg : 0 ≤ b.epochMs.toInt)
    (h : b.firstFault? nowMs = some cause) : b.validate nowMs = .error cause := by
  simp only [firstFault?, requirements, List.find?_cons, hnonneg, decide_true, Bool.not_true] at h
  unfold validate
  simp only [Int64.lt_iff_toInt_lt]
  by_cases hle : b.epochMs.toInt ≤ nowMs.toInt
  · rw [if_neg (Int.not_lt.mpr hle)]
    simp only [hle, decide_true, Bool.not_true] at h
    by_cases hdataCenter : 0 ≤ b.dataCenter.toInt ∧ b.dataCenter.toInt ≤ 31
    · obtain ⟨dataCenter, hd⟩ :
          ∃ dataCenter, mark? Settings.maxDataCenter b.dataCenter = some dataCenter :=
        exists_mark? (by decide) hdataCenter
      simp only [hdataCenter, and_self, decide_true, Bool.not_true] at h
      by_cases hworker : 0 ≤ b.worker.toInt ∧ b.worker.toInt ≤ 31
      · simp [hworker] at h
      · simp only [hworker, decide_false, Bool.not_false, Option.map_some, Option.some.injEq] at h
        have hw : mark? Settings.maxWorker b.worker = none := mark?_eq_none hworker
        simp only [hd, hw, h]
    · simp only [hdataCenter, decide_false, Bool.not_false, Option.map_some, Option.some.injEq] at h
      have hd : mark? Settings.maxDataCenter b.dataCenter = none := mark?_eq_none hdataCenter
      simp only [hd, h]
  · rw [if_pos (Int.not_le.mp hle)]
    simpa [hle] using h

/-! ## The verdict -/

/-- A generator is new, and is set to the numbers of a blueprint. -/
structure Carries (g : Generator) (b : Blueprint) : Prop where
  epochMs : g.settings.epochMs = b.epochMs
  dataCenter : (g.settings.dataCenter.toNat : Int) = b.dataCenter.toInt
  worker : (g.settings.worker.toNat : Int) = b.worker.toInt
  policy : g.settings.policy = b.policy
  clock : g.clock = b.clock
  lastMs : g.progress.lastMs = -1
  sequence : g.progress.sequence = 0
  live : g.poisoned = false

/-- What becomes of a blueprint at a time. -/
structure Verdict (b : Blueprint) (nowMs : Int64) (r : Report Generator) : Prop where
  built_iff : (∃ g, r.outcome = .ok g) ↔ b.Buildable nowMs
  built : ∀ g, r.outcome = .ok g → Carries g b ∧ r.events = [.created g.settings]
  refused : ¬ b.Buildable nowMs → ∃ cause, b.firstFault? nowMs = some cause ∧
    r.outcome = .error (.refused cause) ∧ r.events = []
  reads : r.reads = if b.epochMs.toInt < 0 then 0 else 1

theorem Verdict.ofFault (h : b.firstFault? nowMs = some cause) (rest : List Reading) :
    Verdict b nowMs (b.build (.time nowMs :: rest)) := by
  have hnot : ¬ b.Buildable nowMs := by
    rw [← firstFault?_eq_none_iff, h]
    simp
  have hreport : b.build (.time nowMs :: rest) =
      { outcome := .error (.refused cause)
        events := []
        reads := if b.epochMs.toInt < 0 then 0 else 1 } := by
    -- A negative epoch is the first of the faults, and the only one that is found without a reading.
    by_cases hneg : b.epochMs.toInt < 0
    · have hcause : cause = .epochNegative b.epochMs := by
        simpa [firstFault?, requirements, Int.not_le.mpr hneg] using h.symm
      rw [build_of_negative hneg, if_pos hneg, hcause]
    · have hnonneg := Int.not_lt.mp hneg
      rw [build_of_nonneg hnonneg, validate_of_firstFault? hnonneg h, if_neg hneg]
  rw [hreport]
  refine ⟨?_, ?_, ?_, rfl⟩
  · simp [hnot]
  · intro g hg
    exact nomatch hg
  · intro _
    exact ⟨cause, h, rfl, rfl⟩

theorem Verdict.ofBuildable (h : b.Buildable nowMs) (rest : List Reading) :
    Verdict b nowMs (b.build (.time nowMs :: rest)) := by
  obtain ⟨dataCenter, hd⟩ :
      ∃ dataCenter, mark? Settings.maxDataCenter b.dataCenter = some dataCenter :=
    exists_mark? (by decide) h.dataCenter
  obtain ⟨worker, hw⟩ : ∃ worker, mark? Settings.maxWorker b.worker = some worker :=
    exists_mark? (by decide) h.worker
  let s : Settings := { epochMs := b.epochMs, dataCenter, worker, policy := b.policy }
  have hdataCenter := (mark?_eq_some_iff (by decide)).mp hd
  have hworker := (mark?_eq_some_iff (by decide)).mp hw
  have hvalid : b.validate nowMs = .ok s :=
    validate_eq_ok_iff.mpr ⟨h.epoch_le, hdataCenter, hworker, rfl, rfl⟩
  rw [build_of_nonneg h.epoch_nonneg, hvalid]
  refine ⟨?_, ?_, fun hnot => absurd h hnot, ?_⟩
  · exact iff_of_true ⟨_, rfl⟩ h
  · rintro g ⟨⟩
    exact ⟨⟨rfl, hdataCenter.1, hworker.1, rfl, rfl, rfl, rfl, rfl⟩, rfl⟩
  · rw [if_neg (Int.not_lt.mpr h.epoch_nonneg)]

/-- **A blueprint is built exactly if it meets what is required of it**, as it was given; and if it
does not, the first fault is all that comes of it. The readings after the first one play no part, and
for a negative epoch none does. -/
theorem built_iff_buildable (b : Blueprint) :
    (∀ nowMs rest, Verdict b nowMs (b.build (.time nowMs :: rest))) ∧
      (b.epochMs.toInt < 0 → ∀ supply,
        b.build supply = { outcome := .error (.refused (.epochNegative b.epochMs)) }) := by
  refine ⟨?_, build_of_negative⟩
  intro nowMs rest
  cases hfault : b.firstFault? nowMs with
  | none => exact .ofBuildable (firstFault?_eq_none_iff.mp hfault) rest
  | some cause => exact .ofFault hfault rest

/-- A blueprint with three faults, whose data center would be in range if it were cut to eight bits,
one with the largest marks at the very time of its epoch, and one that no clock can help. -/
theorem built_iff_buildable_at_the_edges :
    let faulty : Blueprint := { epochMs := 2000, dataCenter := 256, worker := -1 }
    let full : Blueprint := { epochMs := 2000, dataCenter := 31, worker := 31 }
    let early : Blueprint := { epochMs := -1 }
    Verdict faulty 1999 (faulty.build [.time 1999]) ∧
      faulty.firstFault? 1999 = some (.epochAhead 2000 1999) ∧
      faulty.firstFault? 2000 = some (.dataCenterOutOfRange 256) ∧
      Verdict full 2000 (full.build [.time 2000]) ∧ full.firstFault? 2000 = none ∧
      early.epochMs.toInt < 0 ∧
      early.build [.fault .stuck] = { outcome := .error (.refused (.epochNegative (-1))) } := by
  intro faulty full early
  exact ⟨(built_iff_buildable faulty).1 1999 [], by decide, by decide,
    (built_iff_buildable full).1 2000 [], by decide, by decide,
    (built_iff_buildable early).2 (by decide) [.fault .stuck]⟩

end Blueprint
end IdMint

import IdMint.Proofs.Fleet.Numbering
import IdMint.Proofs.Generator.Ending

/-!
# Before the first id

A clock goes back from a time that it has shown. So a generator that has issued nothing should find
nothing in a reading but whether it lies before the epoch, and a refusal over a clock that went back
should name a millisecond that an id was issued for.

That is nearly so. The last millisecond of a new generator is a time like any other, the one before
1970, and readings are compared with it. A reading before the epoch is reported as just that unless
it is earlier still; then it is taken for a clock that went back from a millisecond in which nothing
happened (`TakenForSetback`). A generator that fails names that millisecond in its refusal, and one
that waits may wait for it. `setbacks_of_history` draws the line: it is the only millisecond ever
named without an id, and a reading is taken so exactly if it is earlier.
-/

namespace IdMint

open Layout (unpack)

/-! ## New generators -/

/-- The report that a reading is before the epoch, with nothing else said or read. -/
def Report.SaysBeforeEpoch (r : Report UInt64) (s : Settings) (ms : Int64) : Prop :=
  r = { outcome := .error (.refused (.clockBeforeEpoch s.epochMs ms)), events := [], reads := 1 }

/-- A reading counts as a step back from the millisecond before 1970: it is waited for, if the
policy tolerates the distance, and refused if not. There is a warning either way. -/
def Report.TakenForSetback (r : Report UInt64) (s : Settings) (ms : Int64) : Prop :=
  ∃ driftMs : Int64, driftMs.toInt = -1 - ms.toInt ∧
    if s.policy.tolerates driftMs then r.events.head? = some (.waiting (-1) ms driftMs)
    else
      r = { outcome := .error (.refused (.clockMovedBackwards (-1) ms))
            events := [.movedBackwards (-1) ms driftMs]
            reads := 1 }

theorem Report.TakenForSetback.not_saysBeforeEpoch {r : Report UInt64} {s : Settings} {ms : Int64}
    (h : r.TakenForSetback s ms) : ¬ r.SaysBeforeEpoch s ms := by
  intro hsays
  obtain ⟨driftMs, -, htaken⟩ := h
  rw [SaysBeforeEpoch] at hsays
  subst hsays
  split at htaken <;> simp at htaken

namespace Generator

variable {g : Generator} {ms : Int64}

theorem saysBeforeEpoch_of_new (hlive : g.poisoned = false) (hnew : g.progress = {})
    (early : ms.toInt < g.settings.epochMs.toInt) (hms : -1 ≤ ms.toInt) (rest : List Reading) :
    (g.call (.time ms :: rest)).1.SaysBeforeEpoch g.settings ms := by
  have hreached : ¬ ms < (-1 : Int64) := by
    rw [Int64.lt_iff_toInt_lt, show (-1 : Int64).toInt = -1 from rfl]
    omega
  have hearly : ms < g.settings.epochMs := Int64.lt_iff_toInt_lt.mpr early
  simp [call, hlive, hnew, answer, respond, accept, hreached, hearly, Report.SaysBeforeEpoch,
    Report.map, Except.map]

/-- From the millisecond before 1970, the distance to any earlier reading is a word. -/
theorem takenForSetback_of_new (hlive : g.poisoned = false) (hnew : g.progress = {})
    (hms : ms.toInt < -1) (rest : List Reading) :
    (g.call (.time ms :: rest)).1.TakenForSetback g.settings ms := by
  have hlast : g.progress.lastMs = -1 := by rw [hnew]
  have hlastMs : g.progress.lastMs.toInt = -1 := by
    rw [hlast]
    rfl
  have behind : ms.toInt < g.progress.lastMs.toInt := by omega
  have hfits : Checked.Fits (g.progress.lastMs.toInt - ms.toInt) := by
    have hmin := Checked.fits_iff.mp (Checked.fits_toInt ms)
    rw [Checked.fits_iff]
    omega
  obtain ⟨driftMs, drift⟩ := Checked.exists_sub_of_fits hfits
  have hdrift := Checked.sub_eq_ok_iff.mp drift
  refine ⟨driftMs, by omega, ?_⟩
  cases htolerates : g.settings.policy.tolerates driftMs with
  | true => simp [head?_events_of_waits hlive behind drift htolerates, hlast]
  | false => simp [call_of_refused hlive behind drift htolerates, hlast]

end Generator

/-! ## Histories -/

namespace Fleet

/-- What calls through a ref make of early readings after a history. -/
structure Setbacks (f : Fleet) (ref : Ref) (visits : List Visit) (s : Settings) : Prop where
  saysBeforeEpoch_iff : f.idsOf ref visits = [] → ∀ supply ms,
    ((f.reportAfter visits ref supply).taken supply).head? = some (.time ms) →
    ms.toInt < s.epochMs.toInt →
      ((f.reportAfter visits ref supply).SaysBeforeEpoch s ms ↔ -1 ≤ ms.toInt)
  takenForSetback : f.idsOf ref visits = [] → ∀ supply ms,
    ((f.reportAfter visits ref supply).taken supply).head? = some (.time ms) →
    ms.toInt < -1 → (f.reportAfter visits ref supply).TakenForSetback s ms
  /-- A refusal names the millisecond of the last id, if there was one. -/
  movedBackwards : ∀ supply lastMs ms,
    (f.reportAfter visits ref supply).outcome =
        .error (.refused (.clockMovedBackwards lastMs ms)) →
      (∃ id, (f.idsOf ref visits).getLast? = some id ∧
        (unpack id).issuedMs s.epochMs = .ok lastMs) ∨
      f.idsOf ref visits = [] ∧ lastMs = -1 ∧ ms.toInt < -1

/-- **A generator goes back from the ids that it has issued, and from the millisecond before 1970**,
however its calls are interleaved, whatever its clock reads, and whatever fails between them. -/
theorem setbacks_of_history {b : Blueprint} {reading : List Reading} {g : Generator}
    (built : (b.build reading).outcome = .ok g) {f : Fleet} {ref : Ref}
    (held : f.get? ref = some g) (visits : List Visit) : Setbacks f ref visits g.settings := by
  have hnew : g.progress = {} := (Blueprint.build_ok built).2.1
  obtain ⟨g', hg', hset, hsound, htrail⟩ := trail_of_run visits held (.ofBuild built)
  rw [hnew, ← hset] at htrail
  rw [← hset]
  have hreport (supply : List Reading) : f.reportAfter visits ref supply = (g'.call supply).1 := by
    rw [reportAfter, call_of_get? hg']
  have hunissued (hnone : f.idsOf ref visits = []) : g'.progress = {} := by
    rw [hnone] at htrail
    exact htrail
  refine ⟨?_, ?_, ?_⟩
  · intro hnone supply ms hfirst early
    rw [hreport] at hfirst ⊢
    obtain ⟨hlive, rest, rfl⟩ := Generator.of_head?_taken hfirst
    constructor
    · intro hsays
      apply Int.not_lt.mp
      intro hms
      have htaken := Generator.takenForSetback_of_new hlive (hunissued hnone) hms rest
      exact htaken.not_saysBeforeEpoch hsays
    · intro hms
      exact Generator.saysBeforeEpoch_of_new hlive (hunissued hnone) early hms rest
  · intro hnone supply ms hfirst hms
    rw [hreport] at hfirst ⊢
    obtain ⟨hlive, rest, rfl⟩ := Generator.of_head?_taken hfirst
    exact Generator.takenForSetback_of_new hlive (hunissued hnone) hms rest
  · intro supply lastMs ms hrefused
    rw [hreport] at hrefused
    obtain ⟨rfl, behind⟩ := Generator.lastMs_of_movedBackwards hsound hrefused
    cases hids : (f.idsOf ref visits).getLast? with
    | some id => exact .inl ⟨id, rfl, htrail.issuedMs_getLast? hsound.settings hids⟩
    | none =>
      have hnone : f.idsOf ref visits = [] := List.getLast?_eq_none_iff.mp hids
      have hlast : g'.progress.lastMs = -1 := by rw [hunissued hnone]
      refine .inr ⟨hnone, hlast, ?_⟩
      rwa [hlast] at behind

/-- A refusal before the first id, for a reading that is only before the epoch, and one after it. -/
theorem setbacks_of_history_around_first_id :
    let s : Settings := { epochMs := 1000, dataCenter := 3, worker := 7 }
    let f : Fleet := { members := #[{ settings := s }] }
    let early : List Visit := [{ caller := 0, ref := 0, supply := [.time 999] }]
    let visits : List Visit := early ++ [{ caller := 1, ref := 0, supply := [.time 3000] }]
    Setbacks f 0 early s ∧ f.idsOf 0 early = [] ∧
      (f.reportAfter early 0 [.time (-1)]).SaysBeforeEpoch s (-1) ∧
      Setbacks f 0 visits s ∧ f.idsOf 0 visits = [8389029888] ∧
      (f.reportAfter visits 0 [.time 2999]).outcome =
        .error (.refused (.clockMovedBackwards 3000 2999)) := by
  have built : (({ epochMs := 1000, dataCenter := 3, worker := 7 } : Blueprint).build
      [.time 2000]).outcome = .ok { settings :=
        { epochMs := 1000, dataCenter := 3, worker := 7 } } := by rfl
  exact ⟨setbacks_of_history built (by rfl) _, by decide, by rfl,
    setbacks_of_history built (by rfl) _, by decide, by rfl⟩

/-- **A generator that has issued nothing may go back all the same.** The reading is before the
epoch, and no id was ever issued, but the refusal names the millisecond before 1970; and a generator
that waits warns and waits for that millisecond, and so comes to issue an id. -/
theorem setback_before_first_id :
    let fails : Generator := { settings := {} }
    let waits : Generator := { settings := { policy := .wait 5 } }
    (fails.Reached ∧ (fails.call [.time (-2)]).1.outcome =
        .error (.refused (.clockMovedBackwards (-1) (-2)))) ∧
      waits.Reached ∧ (waits.call [.time (-2), .time 3]).1.outcome = .ok 12582912 ∧
        (waits.call [.time (-2), .time 3]).1.events = [.waiting (-1) (-2) 1] := by
  have built : (({} : Blueprint).build [.time 0]).outcome = .ok { settings := {} } := by rfl
  have built' : (({ policy := .wait 5 } : Blueprint).build [.time 0]).outcome =
      .ok { settings := { policy := .wait 5 } } := by rfl
  exact ⟨⟨.built built, by rfl⟩, .built built', by rfl, by rfl⟩

end Fleet
end IdMint

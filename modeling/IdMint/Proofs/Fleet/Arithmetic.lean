import IdMint.Proofs.Fleet.Numbering
import IdMint.Proofs.Generator.Arithmetic

/-!
# Arithmetic over a history

Whatever calls have been made on a generator, by whom, and whatever has become of them, the next call
computes without an accident, unless its first reading is too far behind the id that was issued last
(`SafeButForDrift`). Before there is an id, no reading is: the millisecond before 1970 is within a
word's reach of every time.
-/

namespace IdMint
namespace Fleet

/-- What calls compute that are made on the generator of a ref after a history. -/
structure SafeButForDrift (f : Fleet) (ref : Ref) (visits : List Visit) (g : Generator) :
    Prop where
  /-- The operations are those of the turns that the calls take. -/
  turns : ∀ phase nowMs, (Working.respond g.settings g.progress phase nowMs).turn =
    Generator.respond g.settings g.progress phase nowMs
  exact : ∀ supply, ∀ op ∈ g.operations supply,
    (∀ lastMs nowMs, op ≠ .drift lastMs nowMs) → op.Exact
  /-- If an operation overflows, it is the distance of the first reading from the last id. -/
  overflows_iff : ∀ supply op, op ∈ g.operations supply ∧ op.Overflows ↔
    f.idsOf ref visits ≠ [] ∧
      ∃ ms, ((f.reportAfter visits ref supply).taken supply).head? = some (.time ms) ∧
        ms.toInt < g.progress.lastMs.toInt - Int64.maxValue.toInt ∧
        op = .drift g.progress.lastMs ms
  overflowed_iff : ∀ supply,
    (∃ o, (f.reportAfter visits ref supply).outcome = .error (.overflowed o)) ↔
      ∃ op ∈ g.operations supply, op.Overflows

/-- **Arithmetic is safe but for the drift**, however the calls on a generator are interleaved,
whatever its clock reads, and whatever fails. -/
theorem arithmetic_safe_but_for_drift {b : Blueprint} {reading : List Reading} {g : Generator}
    (built : (b.build reading).outcome = .ok g) {f : Fleet} {ref : Ref}
    (held : f.get? ref = some g) (visits : List Visit) :
    ∃ g', (f.after visits).get? ref = some g' ∧ SafeButForDrift f ref visits g' := by
  have hnew : g.progress = {} := (Blueprint.build_ok built).2.1
  obtain ⟨g', hg', -, hsound, htrail⟩ := trail_of_run visits held (.ofBuild built)
  rw [hnew] at htrail
  have hreport (supply : List Reading) : f.reportAfter visits ref supply = (g'.call supply).1 := by
    rw [reportAfter, call_of_get? hg']
  have hissued {ms : Int64} (hfar : ms.toInt < g'.progress.lastMs.toInt - Int64.maxValue.toInt) :
      f.idsOf ref visits ≠ [] := by
    intro hnone
    rw [hnone] at htrail
    have hlast : g'.progress.lastMs.toInt = -1 := by
      rw [show g'.progress = {} from htrail]
      rfl
    have hms := Checked.fits_iff.mp (Checked.fits_toInt ms)
    have hmax : Int64.maxValue.toInt = 9223372036854775807 := rfl
    omega
  refine ⟨g', hg', fun _ _ => Working.turn_respond _ _ _ _, ?_, ?_, ?_⟩
  · intro supply op hop hother
    rcases Generator.exact_or_drift_of_call hsound hop with hexact | ⟨ms, -, hdrift⟩
    · exact hexact
    · exact absurd hdrift (hother _ _)
  · intro supply op
    rw [Generator.overflows_iff hsound, hreport]
    constructor
    · rintro ⟨ms, hfirst, hfar, hdrift⟩
      exact ⟨hissued hfar, ms, hfirst, hfar, hdrift⟩
    · exact And.right
  · intro supply
    rw [hreport]
    exact Generator.overflowed_iff g' supply

/-- After an id for millisecond 3000, a call for the second id of that millisecond, and one that
reads the earliest time of all. -/
theorem arithmetic_safe_but_for_drift_at_both_ends :
    let s : Settings := { epochMs := 1000, dataCenter := 3, worker := 7 }
    let f : Fleet := { members := #[{ settings := s }] }
    let visits : List Visit := [{ caller := 0, ref := 0, supply := [.time 3000] }]
    let g : Generator := { settings := s, progress := { lastMs := 3000, sequence := 0 } }
    SafeButForDrift f 0 visits g ∧
      g.operations [.time 3000] =
        [.increment 0, .elapse 3000 1000, .unsign 2000, .shift 2000 22, .shift 3 17, .shift 7 12,
          .join [8388608000, 393216, 28672, 1]] ∧
      g.operations [.time Int64.minValue] = [.drift 3000 Int64.minValue] ∧
      (g.call [.time Int64.minValue]).1.outcome = .error (.overflowed .subtraction) := by
  have built : (({ epochMs := 1000, dataCenter := 3, worker := 7 } : Blueprint).build
      [.time 2000]).outcome = .ok { settings :=
        { epochMs := 1000, dataCenter := 3, worker := 7 } } := by rfl
  have held : ({ members := #[{ settings :=
      { epochMs := 1000, dataCenter := 3, worker := 7 } }] } : Fleet).get? 0 =
        some { settings := { epochMs := 1000, dataCenter := 3, worker := 7 } } := by rfl
  obtain ⟨g, hg, hsafe⟩ := arithmetic_safe_but_for_drift built held
    [{ caller := 0, ref := 0, supply := [.time 3000] }]
  obtain rfl := Option.some.inj hg
  exact ⟨hsafe, by decide, by decide, by rfl⟩

end Fleet
end IdMint

import IdMint.Checked
import IdMint.Instant
import IdMint.Proofs.Calendar.Moment

/-!
# The millisecond that an instant lies in

An instant is finer than a millisecond and lies in exactly one of them, the one that has begun and
is not over. `Instant.toMs` names it, on either side of 1970, as long as a word can hold it. All
instants of the calendar are so near: the calendar has half a million years, and a word of
milliseconds is enough for hundreds of millions (`liesIn_toMs_ofSeconds`).
-/

namespace IdMint

namespace Instant

/-- An instant lies in a millisecond that has begun and is not over. -/
def LiesIn (i : Instant) (ms : Int) : Prop := ms * 1000000 ≤ i.ns ∧ i.ns < (ms + 1) * 1000000

theorem liesIn_toMs {i : Instant} (h : Checked.Fits (i.ns / 1000000)) : i.LiesIn i.toMs.toInt := by
  have hms : i.toMs.toInt = i.ns / 1000000 := by
    rw [Checked.fits_iff] at h
    exact Int64.toInt_ofInt_of_le h.1 (by omega)
  rw [LiesIn, hms]
  omega

/-- A second of the calendar, and less than two seconds after it, for the last second of a minute
may be a long one. -/
theorem liesIn_toMs_ofSeconds {seconds : Int} {nanos : Nat}
    (h : (Calendar.Moment.ofMs? (seconds * 1000)).isSome) (hnanos : nanos < 2000000000) :
    (ofSeconds seconds nanos).LiesIn (ofSeconds seconds nanos).toMs.toInt := by
  have hbounds := Calendar.Moment.inUse_iff.mp
    (Calendar.Moment.exists_ofMs?_iff.mp (Option.isSome_iff_exists.mp h))
  refine liesIn_toMs (Checked.fits_iff.mpr ?_)
  simp only [ofSeconds]
  omega

end Instant
end IdMint

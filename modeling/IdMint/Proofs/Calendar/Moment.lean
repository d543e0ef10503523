import IdMint.Calendar.Moment
import IdMint.Proofs.Calendar.Gregorian

/-!
# Moments and milliseconds

A moment is a date that there is and a time of day that there is. Moments and milliseconds stand for
each other, one for one, on both sides of 1970 (`Moment.toMs_ofMs`, `Moment.ofMs_toMs`). Of the
moments, those of the calendar in use go from the first of its first year to the end of its last,
and no millisecond between the two has none (`Moment.ofMs?_eq_some_iff`).
-/

namespace IdMint.Calendar.Moment

/-- A date that there is, and a time of day that there is. -/
structure Valid (m : Moment) : Prop where
  date : m.date.Valid
  hour_lt : m.hour < 24
  minute_lt : m.minute < 60
  second_lt : m.second < 60
  millisecond_lt : m.millisecond < 1000

/-- The milliseconds of a moment since midnight. -/
def sinceMidnight (m : Moment) : Nat :=
  m.hour * 3600000 + m.minute * 60000 + m.second * 1000 + m.millisecond

theorem toMs_eq (m : Moment) : m.toMs = m.date.toDays * 86400000 + m.sinceMidnight := by
  simp only [toMs, dayMs, sinceMidnight]
  omega

theorem valid_ofMs (ms : Int) : (ofMs ms).Valid := by
  have hday : (ms % 86400000).toNat < 86400000 := by omega
  refine ⟨Date.valid_ofDays _, ?_, ?_, ?_, ?_⟩ <;> simp only [ofMs, dayMs] <;> omega

theorem Valid.sinceMidnight_lt {m : Moment} (h : m.Valid) : m.sinceMidnight < 86400000 := by
  have hhour := h.hour_lt
  have hminute := h.minute_lt
  have hsecond := h.second_lt
  have hmillisecond := h.millisecond_lt
  rw [sinceMidnight]
  omega

/-- **A moment is the one of its millisecond.** -/
theorem ofMs_toMs {m : Moment} (h : m.Valid) : ofMs m.toMs = m := by
  have hminute := h.minute_lt
  have hsecond := h.second_lt
  have hmillisecond := h.millisecond_lt
  have hmidnight := h.sinceMidnight_lt
  have hdate : m.toMs / dayMs = m.date.toDays := by
    rw [toMs_eq, dayMs]
    omega
  have hrest : (m.toMs % dayMs).toNat = m.sinceMidnight := by
    rw [toMs_eq, dayMs]
    omega
  obtain ⟨date, hour, minute, second, millisecond⟩ := m
  simp only [ofMs, hdate, hrest, Date.ofDays_toDays h.date, sinceMidnight, mk.injEq, true_and]
    at hminute hsecond hmillisecond ⊢
  omega

/-! ## The calendar in use -/

/-- The first millisecond of the calendar in use. -/
def first : Moment :=
  { date := { year := -262143, month := 1, day := 1 }
    hour := 0, minute := 0, second := 0, millisecond := 0 }

/-- The last millisecond of the calendar in use. -/
def last : Moment :=
  { date := { year := 262142, month := 12, day := 31 }
    hour := 23, minute := 59, second := 59, millisecond := 999 }

/-- A millisecond of the calendar in use. -/
def InUse (ms : Int) : Prop := first.toMs ≤ ms ∧ ms ≤ last.toMs

theorem inUse_iff {ms : Int} :
    InUse ms ↔ -8334601228800000 ≤ ms ∧ ms ≤ 8210266876799999 := Iff.rfl

theorem inUse_iff_year {ms : Int} :
    InUse ms ↔ years.1 ≤ (ofMs ms).date.year ∧ (ofMs ms).date.year ≤ years.2 := by
  have hvalid := (valid_ofMs ms).date
  have hdays : (ofMs ms).date.toDays = ms / 86400000 := Date.toDays_ofDays _
  have hfirst := hvalid.le_year_iff (-262143)
  have hpast := hvalid.le_year_iff 262143
  have hfirstDay : Date.toDays { year := -262143, month := 1, day := 1 } = -96465292 := rfl
  have hpastDay : Date.toDays { year := 262143, month := 1, day := 1 } = 95026237 := rfl
  rw [hdays, hfirstDay] at hfirst
  rw [hdays, hpastDay] at hpast
  rw [inUse_iff, years]
  omega

theorem ofMs?_eq_some_iff {ms : Int} {m : Moment} :
    ofMs? ms = some m ↔ InUse ms ∧ m.Valid ∧ m.toMs = ms := by
  rw [inUse_iff_year, ofMs?]
  constructor
  · intro h
    split at h
    · rename_i hyears
      cases h
      exact ⟨hyears, valid_ofMs ms, toMs_ofMs ms⟩
    · exact nomatch h
  · rintro ⟨hyears, hvalid, rfl⟩
    rw [if_pos hyears, ofMs_toMs hvalid]

theorem exists_ofMs?_iff {ms : Int} : (∃ m, ofMs? ms = some m) ↔ InUse ms := by
  constructor
  · rintro ⟨m, hm⟩
    exact (ofMs?_eq_some_iff.mp hm).1
  · intro h
    exact ⟨ofMs ms, ofMs?_eq_some_iff.mpr ⟨h, valid_ofMs ms, toMs_ofMs ms⟩⟩

theorem ofMs?_eq_none_iff {ms : Int} : ofMs? ms = none ↔ ¬ InUse ms := by
  rw [← exists_ofMs?_iff, Option.eq_none_iff_forall_ne_some, not_exists]

end IdMint.Calendar.Moment

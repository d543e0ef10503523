import IdMint.Proofs.Calendar.Written
import IdMint.Proofs.Layout

/-!
# The time that an id shows

Any word can be asked for the time that it shows, under any epoch, whether it was issued or not. The
time is the sum of the two, and it is exact or there is none: the sum may leave its word, and then
both ways to ask for it fail, or it may leave the calendar, and then there is a number but no
moment. Where there is a moment it is that of the sum, by the calendar and by its text
(`Layout.shows_time_exactly`).
-/

namespace IdMint

open Calendar (Moment)

namespace Calendar.Moment

/-- A moment is that of a millisecond: by its date, which is so many days from 1970-01-01, by its
time of day, and by its text. -/
structure Denotes (m : Moment) (ms : Int) : Prop where
  valid : m.Valid
  date : m.date.Counts (ms / 86400000)
  sinceMidnight : (m.sinceMidnight : Int) = ms % 86400000
  toMs : m.toMs = ms
  form : m.Form m.text.toList
  readBack : ofText? m.text.toList = some m
  /-- The text has a fraction of a second only where it is not zero. -/
  point : '.' ∈ m.text.toList ↔ ms % 1000 ≠ 0

theorem toList_text (m : Moment) : m.text.toList = m.chars := String.toList_ofList

/-- A moment that counts to a millisecond is that of it. -/
theorem denotes_of_toMs {m : Moment} {ms : Int} (h : m.Valid) (hms : m.toMs = ms) :
    m.Denotes ms := by
  have hmidnight := h.sinceMidnight_lt
  have hsum := m.toMs_eq
  rw [hms] at hsum
  refine ⟨h, Date.counts_iff.mpr ⟨h.date, ?_⟩, ?_, hms, ?_, ?_, ?_⟩
  · omega
  · omega
  · rw [toList_text]
    exact (form_iff h).mpr rfl
  · rw [toList_text, ofText?_chars h]
  · have hmillisecond := h.millisecond_lt
    rw [sinceMidnight] at hsum
    rw [toList_text, point_mem_chars]
    omega

/-- A text denotes one millisecond. -/
theorem Denotes.unique {m n : Moment} {ms ns : Int} (hm : m.Denotes ms) (hn : n.Denotes ns)
    (h : m.text = n.text) : ms = ns := by
  have hread := hm.readBack
  rw [h, hn.readBack] at hread
  rw [← hm.toMs, ← hn.toMs, Option.some.inj hread]

end Calendar.Moment

namespace Layout

/-- The millisecond that a word shows under an epoch, whether or not there is a word for it. -/
def shownMs (id : UInt64) (epochMs : Int64) : Int := epochMs.toInt + (unpack id).time.toNat

/-- All that can be asked of the time of a word. -/
structure ShowsTime (id : UInt64) (epochMs : Int64) : Prop where
  time : (unpack id).time.toNat = id.toNat / 2 ^ 22 % 2 ^ 41
  /-- The number fails exactly if the epoch leaves no room for the time. -/
  overflows : ∀ o, (unpack id).issuedMs epochMs = .error o ↔
    o = .addition ∧ Int64.maxValue.toInt - (unpack id).time.toNat < epochMs.toInt
  number : ∀ ms, (unpack id).issuedMs epochMs = .ok ms ↔ ms.toInt = shownMs id epochMs
  /-- The moment fails where the number does. -/
  momentOverflows : ∀ o, (unpack id).moment? epochMs = .error o ↔
    o = .addition ∧ Int64.maxValue.toInt - (unpack id).time.toNat < epochMs.toInt
  /-- There is no moment exactly where the calendar does not reach. -/
  beyond : (unpack id).moment? epochMs = .ok none ↔
    ¬ Int64.maxValue.toInt - (unpack id).time.toNat < epochMs.toInt ∧
      ¬ Moment.InUse (shownMs id epochMs)
  within : (∃ m, (unpack id).moment? epochMs = .ok (some m)) ↔
    ¬ Int64.maxValue.toInt - (unpack id).time.toNat < epochMs.toInt ∧
      Moment.InUse (shownMs id epochMs)
  moment : ∀ m, (unpack id).moment? epochMs = .ok (some m) → m.Denotes (shownMs id epochMs)
  /-- Two words under two epochs that are shown with one text show one time. -/
  apart : ∀ (id' : UInt64) (epochMs' : Int64) (m m' : Moment),
    (unpack id).moment? epochMs = .ok (some m) → (unpack id').moment? epochMs' = .ok (some m') →
    m.text = m'.text → shownMs id epochMs = shownMs id' epochMs'

variable (id : UInt64) (epochMs : Int64)

theorem toInt_time : (unpack id).time.toInt64.toInt = (unpack id).time.toNat := by
  refine toInt_toInt64 ?_
  rw [(toNat_unpack id).2.1]
  omega

/-- The sum can only be too large, for the time is not negative. -/
theorem issuedMs_eq_error_iff (o : Overflow) :
    (unpack id).issuedMs epochMs = .error o ↔
      o = .addition ∧ Int64.maxValue.toInt - (unpack id).time.toNat < epochMs.toInt := by
  have hlow := (Checked.fits_iff.mp (Checked.fits_toInt epochMs)).1
  have hmax : Int64.maxValue.toInt = 9223372036854775807 := rfl
  rw [Parts.issuedMs, Checked.add, Checked.word_eq_error_iff, toInt_time, Checked.fits_iff, hmax]
  constructor
  · rintro ⟨ho, hsum⟩
    exact ⟨ho, by omega⟩
  · rintro ⟨ho, hsum⟩
    exact ⟨ho, by omega⟩

theorem issuedMs_eq_ok_iff (ms : Int64) :
    (unpack id).issuedMs epochMs = .ok ms ↔ ms.toInt = shownMs id epochMs := by
  rw [Parts.issuedMs, Checked.add_eq_ok_iff, toInt_time, shownMs]

theorem moment?_eq_error_iff (o : Overflow) :
    (unpack id).moment? epochMs = .error o ↔ (unpack id).issuedMs epochMs = .error o := by
  rw [Parts.moment?]
  cases (unpack id).issuedMs epochMs <;> simp [Except.map]

theorem moment?_eq_ok_iff (m? : Option Moment) :
    (unpack id).moment? epochMs = .ok m? ↔
      ¬ Int64.maxValue.toInt - (unpack id).time.toNat < epochMs.toInt ∧
        Moment.ofMs? (shownMs id epochMs) = m? := by
  rw [Parts.moment?]
  cases hms : (unpack id).issuedMs epochMs with
  | error o =>
    have hover := ((issuedMs_eq_error_iff id epochMs o).mp hms).2
    exact ⟨fun h => (nomatch h), fun h => absurd hover h.1⟩
  | ok ms =>
    have hfits : ¬ Int64.maxValue.toInt - (unpack id).time.toNat < epochMs.toInt := by
      intro hover
      have herror := (issuedMs_eq_error_iff id epochMs .addition).mpr ⟨rfl, hover⟩
      rw [hms] at herror
      exact nomatch herror
    rw [← (issuedMs_eq_ok_iff id epochMs ms).mp hms]
    exact ⟨fun h => ⟨hfits, Except.ok.inj h⟩, fun h => congrArg Except.ok h.2⟩

theorem denotes_of_moment? {m : Moment} (h : (unpack id).moment? epochMs = .ok (some m)) :
    m.Denotes (shownMs id epochMs) := by
  obtain ⟨-, hm⟩ := (moment?_eq_ok_iff id epochMs _).mp h
  obtain ⟨-, hvalid, hms⟩ := Moment.ofMs?_eq_some_iff.mp hm
  exact Moment.denotes_of_toMs hvalid hms

/-- **The time that a word shows is exact, as a number, as a moment and as a text**, or it is said
that there is none. -/
theorem shows_time_exactly : ShowsTime id epochMs where
  time := (toNat_unpack id).2.1
  overflows := issuedMs_eq_error_iff id epochMs
  number := issuedMs_eq_ok_iff id epochMs
  momentOverflows o := by rw [moment?_eq_error_iff, issuedMs_eq_error_iff]
  beyond := by rw [moment?_eq_ok_iff, Moment.ofMs?_eq_none_iff]
  within := by
    simp only [moment?_eq_ok_iff]
    rw [exists_and_left, Moment.exists_ofMs?_iff]
  moment _ h := denotes_of_moment? id epochMs h
  apart id' epochMs' _ _ h h' := (denotes_of_moment? id epochMs h).unique
    (denotes_of_moment? id' epochMs' h')

/-- Under the last epoch that there is, no time but zero has room, and the calendar is long over. -/
example : (unpack 0).moment? Int64.maxValue = .ok none ∧
    (unpack 0x400000).moment? Int64.maxValue = .error .addition :=
  ⟨by rfl, by rfl⟩

end Layout
end IdMint

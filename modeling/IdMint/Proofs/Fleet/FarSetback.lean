import IdMint.Proofs.Fleet.Numbering
import IdMint.Proofs.Generator.Arithmetic

/-!
# However far a clock goes back

A clock may be set to any time, and then the first reading of a call can be any distance behind the
last issued millisecond. A refusal over it costs nothing: the generator is as it was, and everyone
who holds it gets ids again once the clock is back (`Generator.Back`).

This reaches as far as the distance is a word. The distance is computed before the policy is asked,
by a subtraction that is checked, and a reading that is further behind than the largest word breaks
the call off with the generator in its hands. From then on the generator answers nobody, wherever
the clock is. `reported_iff_fits` says that a regression is reported exactly if its distance is a
word, and what happens if it is not.
-/

namespace IdMint
namespace Generator

variable {s : Settings} {p : Progress} {nowMs : Int64}

/-! ## A clock that is back -/

/-- The clock is back: it reads a later millisecond that an id can be for, or the last one again.
If that one has no numbers left, a later one comes after it, at once or after a while. -/
inductive Back (s : Settings) (p : Progress) : List Reading → Prop
  | later {ms : Int64} {rest : List Reading} (later : p.lastMs.toInt < ms.toInt)
      (epoch : s.epochMs.toInt ≤ ms.toInt) (inTime : ms.toInt < s.epochMs.toInt + 2 ^ 41) :
      Back s p (.time ms :: rest)
  | again {rest : List Reading} (issued : p.Issued s) (left : p.sequence.toNat + 1 < 2 ^ 12) :
      Back s p (.time p.lastMs :: rest)
  | usedUp {waits : List Int64} {ms : Int64} {rest : List Reading} (issued : p.Issued s)
      (full : p.sequence.toNat + 1 = 2 ^ 12) (notPast : ∀ w ∈ waits, w.toInt ≤ p.lastMs.toInt)
      (later : p.lastMs.toInt < ms.toInt) (inTime : ms.toInt < s.epochMs.toInt + 2 ^ 41) :
      Back s p (.time p.lastMs :: (waits.map .time ++ .time ms :: rest))

theorem respond_later (hlater : p.lastMs.toInt < nowMs.toInt)
    (hepoch : s.epochMs.toInt ≤ nowMs.toInt) :
    respond s p .entry nowMs = ([], .finish (stamp s nowMs 0)) := by
  rw [respond_of_reached Phase.accepts_entry (Int.le_of_lt hlater)]
  exact accept_of_later hlater hepoch

theorem respond_usedUp (hp : p.Issued s) (hfull : p.sequence.toNat + 1 = 2 ^ 12) :
    respond s p .entry p.lastMs = ([.sequenceExhausted p.lastMs], .ask .nextMillisecond) := by
  rw [respond_of_reached Phase.accepts_entry (Int.le_refl _)]
  exact accept_usedUp (.inr hp) hp.epoch_le hfull

/-- A call that waits for the next millisecond stamps the first reading that is past. -/
theorem outcome_nextMillisecond {waits : List Int64} {ms : Int64} (rest : List Reading)
    (hwaits : ∀ w ∈ waits, w.toInt ≤ p.lastMs.toInt) (hlater : p.lastMs.toInt < ms.toInt) :
    (answer s p .nextMillisecond (waits.map .time ++ .time ms :: rest)).outcome = stamp s ms 0 := by
  induction waits with
  | nil => rw [List.map_nil, List.nil_append, answer_of_finish (respond_of_past hlater)]
  | cons w waits ih =>
    obtain ⟨hfirst, hrest⟩ := List.forall_mem_cons.mp hwaits
    rw [List.map_cons, List.cons_append, answer_of_ask (respond_of_notPast hfirst)]
    exact ih hrest

theorem exists_stamp (hs : s.Valid) (hepoch : s.epochMs.toInt ≤ nowMs.toInt)
    (hinTime : nowMs.toInt < s.epochMs.toInt + 2 ^ 41) (sequence : UInt16) :
    ∃ id q, stamp s nowMs sequence = .ok (id, q) := by
  obtain ⟨elapsed, helapsed, hstamp⟩ := stamp_eq sequence hs.epoch_nonneg hepoch
  rw [if_pos (by omega)] at hstamp
  exact ⟨_, _, hstamp⟩

/-- **Once the clock is back, a generator that is not poisoned issues an id.** -/
theorem Back.issues {g : Generator} (hg : g.Sound) (hlive : g.poisoned = false)
    {supply : List Reading} (h : Back g.settings g.progress supply) :
    ∃ id, (g.call supply).1.outcome = .ok id := by
  obtain ⟨id, q, hok⟩ : ∃ id q,
      (answer g.settings g.progress .entry supply).outcome = .ok (id, q) := by
    cases h with
    | later hlater hepoch hinTime =>
      rw [answer_of_finish (respond_later hlater hepoch)]
      exact exists_stamp hg.settings hepoch hinTime 0
    | again hissued hleft =>
      rw [answer_of_finish (respond_again hissued hleft)]
      exact exists_stamp hg.settings hissued.epoch_le hissued.lt_limit _
    | usedUp hissued hfull hnotPast hlater hinTime =>
      have hepoch := hissued.epoch_le
      rw [answer_of_ask (respond_usedUp hissued hfull)]
      obtain ⟨id, q, hstamp⟩ := exists_stamp hg.settings (by omega) hinTime 0
      exact ⟨id, q, (outcome_nextMillisecond _ hnotPast hlater).trans hstamp⟩
  refine ⟨id, ?_⟩
  simp [call, hlive, Report.map, hok, Except.map]

/-! ## Overflow -/

/-- A call that an overflow breaks off could not compute how far its first reading was behind. -/
theorem fits_of_overflowed {g : Generator} (hg : g.Sound) {rest : List Reading} {o : Overflow}
    (h : (g.call (.time nowMs :: rest)).1.outcome = .error (.overflowed o)) :
    ¬ Checked.Fits (g.progress.lastMs.toInt - nowMs.toInt) := by
  obtain ⟨op, hop, hoverflows⟩ := (overflowed_iff g _).mp ⟨o, h⟩
  obtain ⟨ms, hfirst, hfar, -⟩ := (overflows_iff hg).mp ⟨hop, hoverflows⟩
  obtain ⟨-, rest', hsupply⟩ := head?_taken_iff.mp hfirst
  cases hsupply
  exact (Checked.not_fits_sub_iff hg.neg_one_le).mpr hfar

end Generator

namespace Fleet

open Generator (Back)

/-! ## Fleets -/

/-- A poisoned generator is still there after a history, and nothing else has become of it. -/
theorem after_of_poisoned {ref : Ref} {g : Generator} (hpoisoned : g.poisoned = true)
    (visits : List Visit) {f : Fleet} (h : f.get? ref = some g) :
    (f.after visits).get? ref = some g := by
  induction visits generalizing f with
  | nil => exact h
  | cons v rest ih =>
    rw [after_cons]
    apply ih
    rw [get?_call]
    split
    · rename_i he
      rw [← he, h, Option.map_some, Generator.call_of_poisoned hpoisoned]
    · exact h

/-- A call whose first reading is behind, as it should go: it is not broken off by what it computes,
it is refused over a reading that the policy does not allow, and whoever holds the generator gets
ids from it once the clock is back. -/
structure Reported (f : Fleet) (ref : Ref) (g : Generator) (nowMs : Int64) (rest : List Reading) :
    Prop where
  unbroken : ∀ o, (f.call ref (.time nowMs :: rest)).1.outcome ≠ .error (.overflowed o)
  refused : ¬ g.settings.policy.Allows g.progress.lastMs nowMs →
    ∃ driftMs : Int64, driftMs.toInt = g.progress.lastMs.toInt - nowMs.toInt ∧
      f.call ref (.time nowMs :: rest) =
        ({ outcome := .error (.refused (.clockMovedBackwards g.progress.lastMs nowMs))
           events := [.movedBackwards g.progress.lastMs nowMs driftMs]
           reads := 1 }, f)
  /-- Unless the clock failed altogether while the call waited. -/
  goesOn : (∀ e, (f.call ref (.time nowMs :: rest)).1.outcome ≠ .error (.clockFailed e)) →
    ∀ g', (f.call ref (.time nowMs :: rest)).2.get? ref = some g' →
    ∀ supply, Back g'.settings g'.progress supply →
      ∃ id, ((f.call ref (.time nowMs :: rest)).2.call ref supply).1.outcome = .ok id

/-- A call that was broken off, and with it all later calls of everyone who holds the generator. -/
structure BrokenForGood (f : Fleet) (ref : Ref) (nowMs : Int64) (rest : List Reading) : Prop where
  overflowed : (f.call ref (.time nowMs :: rest)).1 =
    { outcome := .error (.overflowed .subtraction), reads := 1 }
  poisoned : ∀ visits supply, (f.call ref (.time nowMs :: rest)).2.reportAfter visits ref supply =
    { outcome := .error (.refused .poisoned) }

theorem Reported.ofFits {f : Fleet} {ref : Ref} {g : Generator} (held : f.get? ref = some g)
    (hg : g.Sound) (hlive : g.poisoned = false) {nowMs : Int64}
    (behind : nowMs.toInt < g.progress.lastMs.toInt) (rest : List Reading)
    (hfits : Checked.Fits (g.progress.lastMs.toInt - nowMs.toInt)) :
    Reported f ref g nowMs rest := by
  have hcall := call_of_get? held (.time nowMs :: rest)
  have hunbroken (o : Overflow) :
      (f.call ref (.time nowMs :: rest)).1.outcome ≠ .error (.overflowed o) := by
    rw [hcall]
    intro hover
    exact Generator.fits_of_overflowed hg hover hfits
  obtain ⟨driftMs, drift⟩ := Checked.exists_sub_of_fits hfits
  refine ⟨hunbroken, ?_, ?_⟩
  · intro hallows
    rw [Policy.allows_iff_tolerates behind drift, Bool.not_eq_true] at hallows
    refine ⟨driftMs, Checked.sub_eq_ok_iff.mp drift, ?_⟩
    rw [hcall, Generator.call_of_refused hlive behind drift hallows, update_of_get? held]
  · intro hclock g' hg' supply hback
    have hafter : g' = (g.call (.time nowMs :: rest)).2 := by
      rw [get?_call, if_pos rfl, held] at hg'
      exact (Option.some.inj hg').symm
    have hcrashed : (g.call (.time nowMs :: rest)).1.crashed = false := by
      rw [hcall] at hunbroken hclock
      unfold Report.crashed
      split
      · rename_i e he
        cases e with
        | refused | unanswered => rfl
        | overflowed o => exact absurd he (hunbroken o)
        | clockFailed e => exact absurd he (hclock e)
      · rfl
    have hlive' : g'.poisoned = false := by
      rw [hafter, Generator.poisoned_call, hlive, hcrashed]
      rfl
    rw [call_of_get? hg']
    exact hback.issues (hafter ▸ hg.call _) hlive'

theorem BrokenForGood.ofFar {f : Fleet} {ref : Ref} {g : Generator} (held : f.get? ref = some g)
    (hlive : g.poisoned = false) {nowMs : Int64} (behind : nowMs.toInt < g.progress.lastMs.toInt)
    (rest : List Reading) (hfar : ¬ Checked.Fits (g.progress.lastMs.toInt - nowMs.toInt)) :
    BrokenForGood f ref nowMs rest := by
  have hcall := call_of_get? held (.time nowMs :: rest)
  rw [Generator.call_of_outOfReach hlive behind hfar] at hcall
  refine ⟨by rw [hcall], ?_⟩
  intro visits supply
  have hbroken : (f.call ref (.time nowMs :: rest)).2.get? ref =
      some { g with poisoned := true } := by
    rw [hcall, get?_update, if_pos rfl, held, Option.map_some]
  have hafter := after_of_poisoned rfl visits hbroken
  rw [reportAfter, call_of_get? hafter, Generator.call_of_poisoned rfl]

/-- **A regression is reported exactly if its distance is a word.** If it is not, the generator is
lost to all who hold it. -/
theorem reported_iff_fits {f : Fleet} {ref : Ref} {g : Generator} (held : f.get? ref = some g)
    (hg : g.Reached) (hlive : g.poisoned = false) {nowMs : Int64}
    (behind : nowMs.toInt < g.progress.lastMs.toInt) (rest : List Reading) :
    (Reported f ref g nowMs rest ↔ Checked.Fits (g.progress.lastMs.toInt - nowMs.toInt)) ∧
      (¬ Checked.Fits (g.progress.lastMs.toInt - nowMs.toInt) →
        BrokenForGood f ref nowMs rest) := by
  refine ⟨⟨?_, .ofFits held hg.sound hlive behind rest⟩, .ofFar held hlive behind rest⟩
  intro hreported
  apply Decidable.byContradiction
  intro hfar
  have hbroken := BrokenForGood.ofFar held hlive behind rest hfar
  apply hreported.unbroken .subtraction
  rw [hbroken.overflowed]

/-- The clock goes back by a second, and to the earliest time of all. -/
theorem reported_iff_fits_at_both_ends :
    let g : Generator := { settings := {}, progress := { lastMs := 1000, sequence := 0 } }
    let f : Fleet := { members := #[g] }
    Reported f 0 g 0 [] ∧ BrokenForGood f 0 Int64.minValue [.time 1001] := by
  have built : (({} : Blueprint).build [.time 1000]).outcome = .ok { settings := {} } := by rfl
  have reached := Generator.Reached.called [.time 1000] (.built built)
  exact ⟨(reported_iff_fits (by rfl) reached rfl (by decide) []).1.mpr (by decide),
    (reported_iff_fits (by rfl) reached rfl (by decide) [.time 1001]).2 (by decide)⟩

/-- **A clock that goes back far enough ends a generator.** After one id for millisecond 1000, one
reading of the earliest time is not refused but breaks the call off, and when the clock is back the
generator issues nothing. -/
theorem broken_by_earliest_time :
    let g : Generator := { settings := {}, progress := { lastMs := 1000, sequence := 0 } }
    let f : Fleet := { members := #[g] }
    g.Reached ∧
      (f.call 0 [.time Int64.minValue]).1.outcome = .error (.overflowed .subtraction) ∧
      ((f.call 0 [.time Int64.minValue]).2.call 0 [.time 1001]).1.outcome =
        .error (.refused .poisoned) ∧
      (f.call 0 [.time 1001]).1.outcome = .ok 4198498304 := by
  have built : (({} : Blueprint).build [.time 1000]).outcome = .ok { settings := {} } := by rfl
  exact ⟨Generator.Reached.called [.time 1000] (.built built), by rfl, by rfl, by rfl⟩

end Fleet
end IdMint

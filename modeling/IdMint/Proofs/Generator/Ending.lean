import IdMint.Proofs.Generator.Backward

/-!
# How a call ends

Once a call is decided, it was its last turn that decided it, on the last reading that it took
(`exists_last_turn`). What came before was waiting. So whatever is to be known about the end of a
call follows from what a single turn can end with, and for a generator that was built this is less
than the rules of a turn allow: the sequence never overflows, the elapsed time is always a word, and
what is left is one of five ways (`Finishes`).

Only two of them need a reading that is behind the last issued millisecond, and both belong to the
first reading of a call. From its second reading on, a call ends with an id, or because the time is
up.
-/

namespace IdMint
namespace Generator

variable {s : Settings} {p : Progress} {phase phase' : Phase} {nowMs : Int64} {events : List Event}
  {outcome : Outcome (UInt64 × Progress)}

/-! ## One turn -/

/-- Each way in which a turn ends a call, for settings and progress that a generator can have. -/
inductive Finishes (s : Settings) (p : Progress) (nowMs : Int64) :
    Phase → List Event → Outcome (UInt64 × Progress) → Prop
  | outOfReach (behind : nowMs.toInt < p.lastMs.toInt)
      (far : ¬ Checked.Fits (p.lastMs.toInt - nowMs.toInt)) :
      Finishes s p nowMs .entry [] (.error (.overflowed .subtraction))
  | movedBackwards {driftMs : Int64} (behind : nowMs.toInt < p.lastMs.toInt)
      (drift : driftMs.toInt = p.lastMs.toInt - nowMs.toInt)
      (refused : ¬ s.policy.Allows p.lastMs nowMs) :
      Finishes s p nowMs .entry [.movedBackwards p.lastMs nowMs driftMs]
        (.error (.refused (.clockMovedBackwards p.lastMs nowMs)))
  | beforeEpoch {phase : Phase} (reached : p.lastMs.toInt ≤ nowMs.toInt)
      (early : nowMs.toInt < s.epochMs.toInt) :
      Finishes s p nowMs phase [] (.error (.refused (.clockBeforeEpoch s.epochMs nowMs)))
  | issued {phase : Phase} {id : UInt64} {q : Progress} (reached : p.lastMs.toInt ≤ nowMs.toInt)
      (inTime : nowMs.toInt < s.epochMs.toInt + 2 ^ 41) (lastMs : q.lastMs = nowMs) :
      Finishes s p nowMs phase [] (.ok (id, q))
  | tooLate {phase : Phase} (reached : p.lastMs.toInt ≤ nowMs.toInt)
      (late : s.epochMs.toInt + 2 ^ 41 ≤ nowMs.toInt) :
      Finishes s p nowMs phase [] (.error (.refused .overTimeLimit))

theorem Finishes.ofStamp (hs : s.Valid) (hreached : p.lastMs.toInt ≤ nowMs.toInt)
    (hepoch : s.epochMs.toInt ≤ nowMs.toInt) (sequence : UInt16) :
    Finishes s p nowMs phase [] (stamp s nowMs sequence) := by
  obtain ⟨elapsed, helapsed, hstamp⟩ := stamp_eq sequence hs.epoch_nonneg hepoch
  rw [hstamp]
  split
  · rename_i hlt
    exact .issued hreached (by omega) rfl
  · rename_i hge
    exact .tooLate hreached (by omega)

/-- **A turn that ends a call does so in one of the five ways.** -/
theorem Finishes.ofEq (hs : s.Valid) (hp : p.Sound s) (hpast : phase.Past s p)
    (h : respond s p phase nowMs = (events, .finish outcome)) :
    Finishes s p nowMs phase events outcome := by
  generalize hturn : Turn.finish outcome = turn at h
  cases Responds.ofEq h with
  | outOfReach behind drift =>
    obtain ⟨rfl, hfar⟩ := Checked.word_eq_error_iff.mp drift
    cases hturn
    exact .outOfReach behind hfar
  | movedBackwards behind drift refused =>
    cases hturn
    refine .movedBackwards behind (Checked.sub_eq_ok_iff.mp drift) ?_
    rw [Policy.allows_iff_tolerates behind drift, refused]
    simp
  | past past =>
    have hepoch := hpast rfl
    cases hturn
    exact .ofStamp hs (by omega) (by omega) 0
  | beforeEpoch _ reached early =>
    cases hturn
    exact .beforeEpoch reached early
  | sequenceOverflow _ _ overflow =>
    rw [(increment_of_sound hp).1] at overflow
    exact nomatch overflow
  | sameMillisecond _ same epoch =>
    cases hturn
    exact .ofStamp hs (Int.le_of_eq (by rw [same])) epoch _
  | laterMillisecond _ later epoch =>
    cases hturn
    exact .ofStamp hs (by omega) epoch 0
  | waits | stillBehind | notPast | exhausted => simp at hturn

/-! ## The last turn of a call -/

/-- A call that did not end for want of readings was ended by a turn on the last one that it took.
If it was still at its entry then, there was no other. -/
theorem exists_last_turn (s : Settings) (p : Progress) (phase : Phase) (supply : List Reading)
    (hpast : phase.Past s p) (h : (answer s p phase supply).starved = false) :
    ∃ before ms phase' events,
      (answer s p phase supply).taken supply = before ++ [.time ms] ∧
      respond s p phase' ms = (events, .finish (answer s p phase supply).outcome) ∧
      phase'.Past s p ∧ (phase' = .entry → before = [] ∧ phase = .entry) := by
  induction phase, supply using answer.induct s p with
  | case1 phase => simp [answer, Report.starved] at h
  | case2 phase f rest => simp [answer, Report.starved] at h
  | case3 phase nowMs rest events outcome hturn =>
    refine ⟨[], nowMs, phase, events, taken_of_finish hturn, ?_, hpast, ?_⟩
    · rw [answer_of_finish hturn]
      exact hturn
    · intro hentry
      exact ⟨rfl, hentry⟩
  | case4 phase nowMs rest events phase' hturn ih =>
    rw [answer_of_ask hturn] at h
    obtain ⟨before, ms, last, hevents, htaken, hlast, hlastPast, hentry⟩ := ih (hpast.ofAsk hturn) h
    refine ⟨.time nowMs :: before, ms, last, hevents, ?_, ?_, hlastPast, ?_⟩
    · rw [taken_of_ask hturn, htaken, List.cons_append]
    · rw [answer_of_ask hturn]
      exact hlast
    · intro hlastEntry
      -- A turn that asks for another reading leads away from the entry.
      exact absurd (hentry hlastEntry).2 (waiting_of_ask hturn)

/-- **A call that is decided ends in one of the five ways**, on the last reading that it took. -/
theorem exists_finishes {g : Generator} (hg : g.Sound) (hlive : g.poisoned = false)
    {supply : List Reading} (h : (g.call supply).1.starved = false) :
    ∃ before ms phase events outcome,
      (g.call supply).1.taken supply = before ++ [.time ms] ∧
      Finishes g.settings g.progress ms phase events outcome ∧
      (phase = .entry → before = []) ∧
      (g.call supply).1.outcome = outcome.map Prod.fst ∧ (g.call supply).2 = g.settle outcome := by
  rw [call_of_live hlive] at h ⊢
  rw [Report.starved_map] at h
  obtain ⟨before, ms, phase, events, htaken, hturn, hphase, hentry⟩ :=
    exists_last_turn g.settings g.progress .entry supply (Phase.past_entry _ _) h
  refine ⟨before, ms, phase, events, _, htaken, ?_, fun he => (hentry he).1, rfl, rfl⟩
  exact .ofEq hg.settings hg.progress hphase hturn

/-! ## A first reading that is behind -/

theorem respond_entry_of_behind (behind : nowMs.toInt < p.lastMs.toInt) :
    respond s p .entry nowMs = regress s p nowMs := by
  rw [respond, if_pos (Int64.lt_iff_toInt_lt.mpr behind)]

theorem call_of_refused {g : Generator} (hlive : g.poisoned = false) {driftMs : Int64}
    (behind : nowMs.toInt < g.progress.lastMs.toInt)
    (drift : Checked.sub g.progress.lastMs nowMs = .ok driftMs)
    (refused : g.settings.policy.tolerates driftMs = false) (rest : List Reading) :
    g.call (.time nowMs :: rest) =
      ({ outcome := .error (.refused (.clockMovedBackwards g.progress.lastMs nowMs))
         events := [.movedBackwards g.progress.lastMs nowMs driftMs]
         reads := 1 }, g) := by
  simp [call, hlive, answer, respond_entry_of_behind behind, regress, drift, refused, settle,
    Failure.isCrash, Report.map, Except.map]

theorem call_of_outOfReach {g : Generator} (hlive : g.poisoned = false)
    (behind : nowMs.toInt < g.progress.lastMs.toInt)
    (far : ¬ Checked.Fits (g.progress.lastMs.toInt - nowMs.toInt)) (rest : List Reading) :
    g.call (.time nowMs :: rest) =
      ({ outcome := .error (.overflowed .subtraction), reads := 1 }, { g with poisoned := true }) := by
  have drift : Checked.sub g.progress.lastMs nowMs = .error .subtraction :=
    Checked.word_eq_error_iff.mpr ⟨rfl, far⟩
  simp [call, hlive, answer, respond_entry_of_behind behind, regress, drift, settle,
    Failure.isCrash, Report.map, Except.map]

theorem head?_events_of_waits {g : Generator} (hlive : g.poisoned = false) {driftMs : Int64}
    (behind : nowMs.toInt < g.progress.lastMs.toInt)
    (drift : Checked.sub g.progress.lastMs nowMs = .ok driftMs)
    (tolerated : g.settings.policy.tolerates driftMs = true) (rest : List Reading) :
    (g.call (.time nowMs :: rest)).1.events.head? =
      some (.waiting g.progress.lastMs nowMs driftMs) := by
  simp [call, hlive, answer, respond_entry_of_behind behind, regress, drift, tolerated, Report.map]

/-- A call that took a reading took the first one there was, and was made on a live generator. -/
theorem of_head?_taken {g : Generator} {supply : List Reading} {reading : Reading}
    (h : ((g.call supply).1.taken supply).head? = some reading) :
    g.poisoned = false ∧ ∃ rest, supply = reading :: rest := by
  cases hpoisoned : g.poisoned with
  | true => simp [call, hpoisoned, Report.taken] at h
  | false =>
    refine ⟨rfl, ?_⟩
    rw [Report.taken, List.head?_take] at h
    split at h
    · simp at h
    · obtain ⟨rest, hrest⟩ := List.head?_eq_some_iff.mp h
      exact ⟨rest, hrest⟩

/-- A live generator takes the first reading that there is, and a poisoned one takes none. -/
theorem head?_taken_iff {g : Generator} {supply : List Reading} {ms : Int64} :
    ((g.call supply).1.taken supply).head? = some (.time ms) ↔
      g.poisoned = false ∧ ∃ rest, supply = .time ms :: rest := by
  constructor
  · exact of_head?_taken
  · rintro ⟨hlive, rest, rfl⟩
    rw [call_of_live hlive, Report.taken_map]
    cases hturn : respond g.settings g.progress .entry ms with
    | mk events turn =>
      cases turn with
      | finish outcome => rw [taken_of_finish hturn, List.head?_cons]
      | ask phase => rw [taken_of_ask hturn, List.head?_cons]

/-! ## What a refusal says -/

theorem ne_poisoned_of_answer (s : Settings) (p : Progress) (phase : Phase)
    (supply : List Reading) :
    (answer s p phase supply).outcome ≠ .error (.refused .poisoned) := by
  induction phase, supply using answer.induct s p with
  | case1 phase => simp [answer]
  | case2 phase f rest => simp [answer]
  | case3 phase nowMs rest events outcome hturn =>
    rw [answer_of_finish hturn]
    cases Responds.ofEq hturn with
    | outOfReach | movedBackwards | beforeEpoch | sequenceOverflow => simp
    | past | sameMillisecond | laterMillisecond =>
      unfold stamp
      split
      · simp
      · split <;> simp
  | case4 phase nowMs rest events phase' hturn ih =>
    rw [answer_of_ask hturn]
    exact ih

theorem poisoned_iff (g : Generator) (supply : List Reading) :
    (g.call supply).1.outcome = .error (.refused .poisoned) ↔ g.poisoned = true := by
  cases hpoisoned : g.poisoned with
  | true => simp [call_of_poisoned hpoisoned]
  | false =>
    have hne := ne_poisoned_of_answer g.settings g.progress .entry supply
    simp only [call, hpoisoned, Bool.false_eq_true, if_false, iff_false]
    cases hr : (answer g.settings g.progress .entry supply).outcome with
    | ok answered => simp [Report.map, hr, Except.map]
    | error f =>
      rw [hr] at hne
      simpa [Report.map, hr, Except.map] using hne

/-- A call that is refused over a clock that went back names the generator's last millisecond. -/
theorem lastMs_of_movedBackwards {g : Generator} (hg : g.Sound) {supply : List Reading}
    {lastMs ms : Int64}
    (h : (g.call supply).1.outcome = .error (.refused (.clockMovedBackwards lastMs ms))) :
    lastMs = g.progress.lastMs ∧ ms.toInt < lastMs.toInt := by
  have hlive : g.poisoned = false := by
    rw [← Bool.not_eq_true, ← poisoned_iff g supply, h]
    simp
  have hdecided : (g.call supply).1.starved = false := by
    simp [Report.starved, h]
  obtain ⟨before, ms', phase, events, outcome, -, hfinishes, -, houtcome, -⟩ :=
    exists_finishes hg hlive hdecided
  rw [h] at houtcome
  cases hfinishes with
  | movedBackwards behind drift refused =>
    simp only [Except.map, Except.error.injEq, Failure.refused.injEq,
      MintError.clockMovedBackwards.injEq] at houtcome
    obtain ⟨rfl, rfl⟩ := houtcome
    exact ⟨rfl, behind⟩
  | outOfReach | beforeEpoch | issued | tooLate => simp [Except.map] at houtcome

end Generator
end IdMint

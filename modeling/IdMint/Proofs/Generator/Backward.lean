import IdMint.Proofs.Generator.Parts

/-!
# A clock that goes back during a call

The policy says how far behind the last issued millisecond a reading may be. A call goes by its
policy if it is refused over any reading that is further behind (`HeedsPolicy`), so that a call with
an id has read nothing of the kind.

The policy is asked about the first reading of a call and about no other. A call that waits, for the
clock to catch up or for the next millisecond, goes on waiting whatever it reads. So a call goes by
its policy exactly when its later readings give no occasion, and a clock that is set back by an hour
in the middle of a call holds the generator for an hour. The distance of the first reading has to be
a word besides, for a call that cannot compute it crashes.
-/

namespace IdMint

/-- A reading is no further behind the last issued millisecond than the policy allows. -/
def Policy.Allows (policy : Policy) (lastMs ms : Int64) : Prop :=
  lastMs.toInt ≤ ms.toInt ∨
    match policy with
    | .fail => False
    | .wait maxDriftMs => lastMs.toInt - ms.toInt ≤ maxDriftMs.toInt

theorem Policy.allows_of_le {policy : Policy} {lastMs ms : Int64} (h : lastMs.toInt ≤ ms.toInt) :
    policy.Allows lastMs ms := .inl h

/-- For a reading that is behind, what is allowed is what is tolerated. -/
theorem Policy.allows_iff_tolerates {policy : Policy} {lastMs ms driftMs : Int64}
    (behind : ms.toInt < lastMs.toInt) (drift : Checked.sub lastMs ms = .ok driftMs) :
    policy.Allows lastMs ms ↔ policy.tolerates driftMs = true := by
  have hdrift : driftMs.toInt = lastMs.toInt - ms.toInt := Checked.sub_eq_ok_iff.mp drift
  cases policy with
  | fail =>
    simp only [Allows, tolerates, or_false, Bool.false_eq_true, iff_false]
    omega
  | wait maxDriftMs =>
    simp only [Allows, tolerates, decide_eq_true_eq, Int64.le_iff_toInt_le]
    omega

namespace Generator

variable {s : Settings} {p : Progress} {phase phase' : Phase} {nowMs : Int64}
  {events : List Event} {outcome : Outcome (UInt64 × Progress)} {rest : List Reading}

/-- A call goes by its policy: it is refused over any reading that the policy does not allow. -/
def HeedsPolicy (g : Generator) (supply : List Reading) : Prop :=
  ∀ ms, .time ms ∈ (g.call supply).1.taken supply →
    ¬ g.settings.policy.Allows g.progress.lastMs ms →
      (g.call supply).1.outcome = .error (.refused (.clockMovedBackwards g.progress.lastMs ms))

/-! ## Waiting -/

theorem stamp_ne_movedBackwards (s : Settings) (nowMs : Int64) (sequence : UInt16)
    (lastMs ms : Int64) :
    stamp s nowMs sequence ≠ .error (.refused (.clockMovedBackwards lastMs ms)) := by
  unfold stamp
  split
  · simp
  · split <;> simp

theorem waiting_of_ask (h : respond s p phase nowMs = (events, .ask phase')) :
    phase' ≠ .entry := by
  generalize hturn : Turn.ask phase' = turn at h
  cases Responds.ofEq h with
  | waits | stillBehind | notPast | exhausted =>
    rw [Turn.ask.injEq] at hturn
    simp [hturn]
  | outOfReach | movedBackwards | beforeEpoch | sequenceOverflow => simp at hturn
  | past | sameMillisecond | laterMillisecond => simp at hturn

/-- A call that waits is never refused over what it reads. -/
theorem answer_ne_movedBackwards (s : Settings) (p : Progress) (lastMs ms : Int64)
    (supply : List Reading) (hphase : phase ≠ .entry) :
    (answer s p phase supply).outcome ≠
      .error (.refused (.clockMovedBackwards lastMs ms)) := by
  induction phase, supply using answer.induct s p with
  | case1 phase => simp [answer]
  | case2 phase f rest => simp [answer]
  | case3 phase nowMs rest events outcome hturn =>
    rw [answer_of_finish hturn]
    cases Responds.ofEq hturn with
    | outOfReach | movedBackwards => exact absurd rfl hphase
    | beforeEpoch | sequenceOverflow => simp
    | past | sameMillisecond | laterMillisecond =>
      exact stamp_ne_movedBackwards s nowMs _ lastMs ms
  | case4 phase nowMs rest events phase' hturn ih =>
    rw [answer_of_ask hturn]
    exact ih (waiting_of_ask hturn)

/-! ## The first reading -/

/-- A first reading that sends the call to wait is one that the policy allows. -/
theorem allows_of_ask (h : respond s p .entry nowMs = (events, .ask phase')) :
    s.policy.Allows p.lastMs nowMs := by
  generalize hphase : Phase.entry = phase at h
  generalize hturn : Turn.ask phase' = turn at h
  cases Responds.ofEq h with
  | waits behind drift tolerated => exact (Policy.allows_iff_tolerates behind drift).mpr tolerated
  | exhausted _ same => exact Policy.allows_of_le (Int.le_of_eq (by rw [same]))
  | stillBehind | notPast | past => simp at hphase
  | outOfReach | movedBackwards | beforeEpoch | sequenceOverflow => simp at hturn
  | sameMillisecond | laterMillisecond => simp at hturn

/-- A first reading that the policy does not allow ends the call, with the refusal that is due if
the distance is a word. -/
theorem refused_iff_of_finish (h : respond s p .entry nowMs = (events, .finish outcome))
    (hallows : ¬ s.policy.Allows p.lastMs nowMs) :
    outcome = .error (.refused (.clockMovedBackwards p.lastMs nowMs)) ↔
      Checked.Fits (p.lastMs.toInt - nowMs.toInt) := by
  generalize hphase : Phase.entry = phase at h
  generalize hturn : Turn.finish outcome = turn at h
  have behind : nowMs.toInt < p.lastMs.toInt := by
    apply Int.not_le.mp
    intro hle
    exact hallows (Policy.allows_of_le hle)
  cases Responds.ofEq h with
  | outOfReach _ drift =>
    obtain ⟨-, hfits⟩ := Checked.word_eq_error_iff.mp drift
    simp [Turn.finish.inj hturn, hfits]
  | @movedBackwards driftMs _ drift refused =>
    have hfits : Checked.Fits (p.lastMs.toInt - nowMs.toInt) := by
      rw [← Checked.sub_eq_ok_iff.mp drift]
      exact Checked.fits_toInt driftMs
    exact iff_of_true (Turn.finish.inj hturn) hfits
  | past => simp at hphase
  | beforeEpoch _ reached => omega
  | sequenceOverflow _ same | sameMillisecond _ same =>
    rw [same] at behind
    omega
  | laterMillisecond _ later => omega
  | waits | stillBehind | notPast | exhausted => simp at hturn

/-! ## Going by the policy -/

theorem heedsPolicy_iff_answer {g : Generator} (hlive : g.poisoned = false)
    (supply : List Reading) :
    g.HeedsPolicy supply ↔
      ∀ ms, .time ms ∈ (answer g.settings g.progress .entry supply).taken supply →
        ¬ g.settings.policy.Allows g.progress.lastMs ms →
          (answer g.settings g.progress .entry supply).outcome =
            .error (.refused (.clockMovedBackwards g.progress.lastMs ms)) := by
  unfold HeedsPolicy call
  simp only [hlive, Bool.false_eq_true, if_false, Report.taken_map]
  cases hr : (answer g.settings g.progress .entry supply).outcome with
  | ok answered => simp [Report.map, hr, Except.map]
  | error f => simp [Report.map, hr, Except.map]

/-- **A call goes by its policy exactly when its later readings give no occasion**: all readings
after the first are allowed, and if the first is not, its distance is a word. -/
theorem heeds_policy_iff (g : Generator) (supply : List Reading) :
    g.HeedsPolicy supply ↔
      (∀ ms, .time ms ∈ ((g.call supply).1.taken supply).tail →
        g.settings.policy.Allows g.progress.lastMs ms) ∧
      ∀ ms, ((g.call supply).1.taken supply).head? = some (.time ms) →
        ¬ g.settings.policy.Allows g.progress.lastMs ms →
          Checked.Fits (g.progress.lastMs.toInt - ms.toInt) := by
  cases hpoisoned : g.poisoned with
  | true => simp [HeedsPolicy, call, hpoisoned, Report.taken]
  | false =>
    have htaken : (g.call supply).1.taken supply =
        (answer g.settings g.progress .entry supply).taken supply := by
      simp [call, hpoisoned]
    rw [heedsPolicy_iff_answer hpoisoned, htaken]
    cases supply with
    | nil => simp [answer, Report.taken]
    | cons reading rest =>
      cases reading with
      | fault f => simp [answer, Report.taken]
      | time first =>
        cases hturn : respond g.settings g.progress .entry first with
        | mk events turn =>
          cases turn with
          | finish outcome =>
            rw [taken_of_finish hturn, answer_of_finish hturn]
            simp only [List.mem_singleton, Reading.time.injEq, List.tail_cons, List.not_mem_nil,
              false_imp_iff, implies_true, true_and, List.head?_cons, Option.some.injEq]
            constructor
            · rintro h ms rfl hallows
              exact (refused_iff_of_finish hturn hallows).mp (h first rfl hallows)
            · rintro h ms rfl hallows
              exact (refused_iff_of_finish hturn hallows).mpr (h ms rfl hallows)
          | ask phase' =>
            -- The call waits now, so that no refusal over a reading can come any more.
            have hfirst := allows_of_ask hturn
            have hnever (ms : Int64) := answer_ne_movedBackwards g.settings g.progress
              g.progress.lastMs ms rest (waiting_of_ask hturn)
            rw [taken_of_ask hturn, answer_of_ask hturn]
            simp only [List.mem_cons, Reading.time.injEq, List.tail_cons, List.head?_cons,
              Option.some.injEq]
            constructor
            · intro h
              refine ⟨?_, ?_⟩
              · intro ms hmem
                apply Classical.byContradiction
                intro hallows
                exact hnever ms (h ms (.inr hmem) hallows)
              · rintro ms rfl hallows
                exact absurd hfirst hallows
            · rintro ⟨hlater, -⟩ ms (rfl | hmem) hallows
              · exact absurd hfirst hallows
              · exact absurd (hlater ms hmem) hallows

/-! ## A millisecond that is used up -/

/-- A reading of the last issued millisecond goes on with its sequence. -/
theorem respond_again (hp : p.Issued s) (hleft : p.sequence.toNat + 1 < 2 ^ 12) :
    respond s p .entry p.lastMs = ([], .finish (stamp s p.lastMs (p.sequence + 1))) := by
  rw [respond_of_reached Phase.accepts_entry (Int.le_refl _)]
  exact accept_again (.inr hp) hp.epoch_le hleft

/-- A call that reads the last issued millisecond again goes on with its sequence. -/
theorem call_again {g : Generator} (hlive : g.poisoned = false) (hs : g.settings.Valid)
    (hp : g.progress.Issued g.settings) (hnext : g.progress.sequence.toNat + 1 < 2 ^ 12) :
    (g.call [.time g.progress.lastMs]).2 =
      { g with progress := { g.progress with sequence := g.progress.sequence + 1 } } := by
  obtain ⟨elapsed, helapsed, hstamp⟩ :=
    stamp_eq (g.progress.sequence + 1) hs.epoch_nonneg hp.epoch_le
  have hlimit := hp.lt_limit
  rw [if_pos (by omega)] at hstamp
  simp [call, hlive, answer, respond_again hp hnext, hstamp, settle]

/-- If the clock stands still, a generator issues all the ids of a millisecond. -/
theorem Reached.used_up {g : Generator} (hg : g.Reached) (hlive : g.poisoned = false)
    (hp : g.progress.Issued g.settings) (hfirst : g.progress.sequence = 0) :
    ∀ n < 2 ^ 12,
      Reached { g with progress := { g.progress with sequence := UInt16.ofNat n } } := by
  intro n
  induction n with
  | zero =>
    intro _
    have hsame : g = { g with progress := { g.progress with sequence := UInt16.ofNat 0 } } := by
      rw [show UInt16.ofNat 0 = g.progress.sequence from hfirst.symm]
    exact hsame ▸ hg
  | succ n ih =>
    intro hn
    have hthere := ih (by omega)
    have hlt : (UInt16.ofNat n).toNat + 1 < 2 ^ 12 := by
      rw [UInt16.toNat_ofNat']
      omega
    let used : Generator :=
      { g with progress := { g.progress with sequence := UInt16.ofNat n } }
    have hnext : (used.call [.time g.progress.lastMs]).2 =
        { g with progress := { g.progress with sequence := UInt16.ofNat n + 1 } } :=
      call_again hlive hg.sound.settings ⟨hp.epoch_le, hp.lt_limit, Nat.lt_of_succ_lt hlt⟩ hlt
    have hsucc : UInt16.ofNat (n + 1) = UInt16.ofNat n + 1 := UInt16.ofNat_add n 1
    rw [hsucc, ← hnext]
    exact .called _ hthere

/-! ## A refutation -/

theorem not_heedsPolicy {g : Generator} {supply : List Reading} {id : UInt64} (ms : Int64)
    (h : (g.call supply).1.outcome = .ok id) (hread : .time ms ∈ (g.call supply).1.taken supply)
    (hallows : ¬ g.settings.policy.Allows g.progress.lastMs ms) : ¬ g.HeedsPolicy supply := by
  intro heeds
  rw [heeds ms hread hallows] at h
  exact nomatch h

/-- **Waits do not go by the policy.** A generator that never waits for a clock that went back waits
for one all the same while its millisecond is used up; and a generator that waits for five
milliseconds at most, and is two behind, goes on waiting when it falls nine seconds behind. -/
theorem policy_unheeded_in_waits :
    let usedUp : Generator :=
      { settings := {}, progress := { lastMs := 1000, sequence := 4095 } }
    let behind : Generator :=
      { settings := { policy := .wait 5 }, progress := { lastMs := 10000, sequence := 0 } }
    (usedUp.Reached ∧
        (usedUp.call [.time 1000, .time 0, .time 1001]).1.outcome = .ok 4198498304 ∧
        ¬ usedUp.HeedsPolicy [.time 1000, .time 0, .time 1001]) ∧
      behind.Reached ∧
        (behind.call [.time 9998, .time 1000, .time 10000]).1.outcome = .ok 41943040001 ∧
        ¬ behind.HeedsPolicy [.time 9998, .time 1000, .time 10000] := by
  have built : (({} : Blueprint).build [.time 1000]).outcome = .ok { settings := {} } := by rfl
  have built' : (({ policy := .wait 5 } : Blueprint).build [.time 10000]).outcome =
      .ok { settings := { policy := .wait 5 } } := by rfl
  have first := Reached.called [.time 1000] (.built built)
  have first' := Reached.called [.time 10000] (.built built')
  refine ⟨⟨?_, by rfl, ?_⟩, first', by rfl, ?_⟩
  · exact first.used_up rfl ⟨by decide, by decide, by decide⟩ rfl 4095 (by decide)
  · exact not_heedsPolicy 0 (by rfl) (by decide) (by simp [Policy.Allows])
  · exact not_heedsPolicy 1000 (by rfl) (by decide) (by simp [Policy.Allows])

end Generator
end IdMint

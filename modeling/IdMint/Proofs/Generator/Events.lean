import IdMint.Proofs.Generator.Ending

/-!
# What a call says

Beside its answer a call has little to say: that it waits for a clock that went back, that the last
issued millisecond is used up, or that it refuses over a clock that went back. Whoever listens should
be able to tell from it what happened, and for that each event has to come exactly when its cause
does, with its numbers, and once however long the call waits.

So the events of a call are read off two of its readings. The first one decides whether there is a
warning, and which: waiting and refusing are never both said. The first one that is not behind, which
is the one that the call goes by, decides whether the millisecond is used up (`usedUp`). What is read
during the waits adds nothing. `Tells` has the three courses that a call can take, and `Told` what a
listener can rely on.

The distance of a clock that went back is computed twice, for the warning and for the sentence of the
refusal. The second time it cannot overflow, for it is the same number, and it was a word.
-/

namespace IdMint

/-- An event as it is written out: how loud it is, and its sentence. -/
def Event.line (e : Event) : Level × String := (e.level, e.message)

namespace Generator

/-! ## What is read off the readings -/

/-- A reading that is not behind the last issued millisecond. -/
def reaches (p : Progress) : Reading → Bool
  | .time ms => p.lastMs ≤ ms
  | .fault _ => false

theorem reaches_iff {p : Progress} {ms : Int64} :
    reaches p (.time ms) = true ↔ p.lastMs.toInt ≤ ms.toInt := by
  simp only [reaches, decide_eq_true_eq, Int64.le_iff_toInt_le]

/-- The first reading that is not behind is for the last issued millisecond, and no number is left. -/
abbrev FindsUsedUp (p : Progress) (taken : List Reading) : Prop :=
  taken.find? (reaches p) = some (.time p.lastMs) ∧ p.sequence = 4095

/-- What these readings give occasion to say of the last issued millisecond. -/
def usedUp (p : Progress) (taken : List Reading) : List Event :=
  if FindsUsedUp p taken then [.sequenceExhausted p.lastMs] else []

/-- The first reading is behind the last issued millisecond, and not too far to wait for. -/
structure WaitsOver (g : Generator) (taken : List Reading) (nowMs : Int64) : Prop where
  first : taken.head? = some (.time nowMs)
  behind : nowMs.toInt < g.progress.lastMs.toInt
  within : ∃ maxDriftMs, g.settings.policy = .wait maxDriftMs ∧
    g.progress.lastMs.toInt - nowMs.toInt ≤ maxDriftMs.toInt

variable {s : Settings} {p : Progress} {phase : Phase} {nowMs : Int64} {rest : List Reading}

theorem usedUp_nil : usedUp p [] = [] := by
  rw [usedUp, if_neg]
  rintro ⟨hfind, -⟩
  simp at hfind

theorem usedUp_of_behind (behind : nowMs.toInt < p.lastMs.toInt) :
    usedUp p (.time nowMs :: rest) = usedUp p rest := by
  have hnot : reaches p (.time nowMs) = false := by
    rw [← Bool.not_eq_true, reaches_iff]
    omega
  simp only [usedUp, FindsUsedUp, List.find?_cons, hnot]

theorem usedUp_of_reached (reached : p.lastMs.toInt ≤ nowMs.toInt) :
    usedUp p (.time nowMs :: rest) =
      if nowMs = p.lastMs ∧ p.sequence = 4095 then [.sequenceExhausted p.lastMs] else [] := by
  simp only [usedUp, FindsUsedUp, List.find?_cons, reaches_iff.mpr reached, Option.some.injEq,
    Reading.time.injEq]

theorem mem_usedUp {taken : List Reading} {e : Event} :
    e ∈ usedUp p taken ↔ e = .sequenceExhausted p.lastMs ∧ FindsUsedUp p taken := by
  unfold usedUp
  split
  · rename_i hfinds
    rw [List.mem_singleton]
    exact ⟨fun he => ⟨he, hfinds⟩, fun h => h.1⟩
  · rename_i hnot
    simp only [List.not_mem_nil, false_iff]
    exact fun h => hnot h.2

/-- A reading that is behind and allowed is one that a policy waits for. -/
theorem waitsOver_iff {g : Generator} {taken : List Reading} :
    WaitsOver g taken nowMs ↔
      taken.head? = some (.time nowMs) ∧ nowMs.toInt < g.progress.lastMs.toInt ∧
        g.settings.policy.Allows g.progress.lastMs nowMs := by
  constructor
  · rintro ⟨hfirst, behind, maxDriftMs, hpolicy, hwithin⟩
    refine ⟨hfirst, behind, .inr ?_⟩
    rw [hpolicy]
    exact hwithin
  · rintro ⟨hfirst, behind, hle | hallowed⟩
    · omega
    · refine ⟨hfirst, behind, ?_⟩
      cases hpolicy : g.settings.policy with
      | fail => simp [hpolicy] at hallowed
      | wait maxDriftMs => exact ⟨maxDriftMs, rfl, by simpa [hpolicy] using hallowed⟩

/-! ## The turns of a call -/

/-- The mask takes a sequence number away exactly if it is the one after the last. -/
theorem around_iff (hp : p.Sound s) {next : UInt16}
    (increment : Checked.increment p.sequence = .ok next) :
    next &&& Layout.maxSequence = 0 ↔ p.sequence = 4095 := by
  have hnext := Checked.increment_eq_ok_iff.mp increment
  have hlt := hp.sequence_lt
  have hmax : (4095 : UInt16).toNat = 4095 := rfl
  rw [← UInt16.toNat_inj, ← UInt16.toNat_inj, toNat_and_maxSequence, UInt16.toNat_zero, hmax]
  omega

/-- A call that waits for the next millisecond has said all that it has to say. -/
theorem events_nextMillisecond (s : Settings) (p : Progress) (supply : List Reading) :
    (answer s p .nextMillisecond supply).events = [] := by
  induction supply with
  | nil => rfl
  | cons reading rest ih =>
    cases reading with
    | fault f => rfl
    | time nowMs =>
      by_cases hpast : p.lastMs.toInt < nowMs.toInt
      · rw [answer_of_finish (respond_of_past hpast)]
      · rw [answer_of_ask (respond_of_notPast (Int.not_lt.mp hpast)), ih]
        rfl

/-- A call that takes a reading which is not behind. -/
theorem events_of_reached (hp : p.Sound s) (accepts : phase.Accepts)
    (reached : p.lastMs.toInt ≤ nowMs.toInt) :
    (answer s p phase (.time nowMs :: rest)).events =
      if nowMs = p.lastMs ∧ p.sequence = 4095 then [.sequenceExhausted p.lastMs] else [] := by
  cases hturn : respond s p phase nowMs with
  | mk events turn =>
    cases Responds.ofEq hturn with
    | outOfReach behind | movedBackwards behind | waits behind | stillBehind behind => omega
    | notPast | past => exact accepts.elim
    | beforeEpoch _ _ early =>
      -- The last issued millisecond is not before the epoch, and if there is none, numbers are left.
      have hnot : ¬ (nowMs = p.lastMs ∧ p.sequence = 4095) := by
        rintro ⟨rfl, hfull⟩
        rcases hp with rfl | hissued
        · simp at hfull
        · have hepoch := hissued.epoch_le
          omega
      rw [answer_of_finish hturn, if_neg hnot]
    | sequenceOverflow _ _ overflow =>
      rw [(increment_of_sound hp).1] at overflow
      exact nomatch overflow
    | exhausted _ same _ increment around =>
      have hfull := (around_iff hp increment).mp around
      rw [answer_of_ask hturn, events_nextMillisecond, if_pos ⟨same, hfull⟩, same]
      rfl
    | sameMillisecond _ _ _ increment within =>
      have hleft : p.sequence ≠ 4095 := fun hfull => within ((around_iff hp increment).mpr hfull)
      rw [answer_of_finish hturn, if_neg fun h => hleft h.2]
    | laterMillisecond _ later =>
      have hne : nowMs ≠ p.lastMs := by
        rintro rfl
        omega
      rw [answer_of_finish hturn, if_neg fun h => hne h.1]

theorem exists_taken_cons (s : Settings) (p : Progress) (phase : Phase) (nowMs : Int64)
    (rest : List Reading) :
    ∃ more, (answer s p phase (.time nowMs :: rest)).taken (.time nowMs :: rest) =
      .time nowMs :: more := by
  cases hturn : respond s p phase nowMs with
  | mk events turn =>
    cases turn with
    | finish outcome => exact ⟨[], taken_of_finish hturn⟩
    | ask phase' => exact ⟨_, taken_of_ask hturn⟩

theorem events_catchUp (hp : p.Sound s) (supply : List Reading) :
    (answer s p .catchUp supply).events =
      usedUp p ((answer s p .catchUp supply).taken supply) := by
  -- On the readings that are still behind: the call passes them over, and so does `usedUp`.
  induction supply with
  | nil => exact usedUp_nil.symm
  | cons reading rest ih =>
    cases reading with
    | fault f => exact usedUp_nil.symm
    | time nowMs =>
      by_cases hreached : p.lastMs.toInt ≤ nowMs.toInt
      · obtain ⟨more, htaken⟩ := exists_taken_cons s p .catchUp nowMs rest
        rw [htaken, usedUp_of_reached hreached,
          events_of_reached hp Phase.accepts_catchUp hreached]
      · have behind := Int.not_le.mp hreached
        have hturn := respond_of_stillBehind (s := s) behind
        rw [taken_of_ask hturn, usedUp_of_behind behind, answer_of_ask hturn, ih]
        rfl

/-! ## The course of a call -/

/-- What a call says and how it ends, by the readings that it took. -/
inductive Tells (s : Settings) (p : Progress) (taken : List Reading) :
    List Event → Outcome UInt64 → Prop
  | refuses {nowMs driftMs : Int64} (only : taken = [.time nowMs])
      (behind : nowMs.toInt < p.lastMs.toInt)
      (drift : driftMs.toInt = p.lastMs.toInt - nowMs.toInt)
      (refused : ¬ s.policy.Allows p.lastMs nowMs) :
      Tells s p taken [.movedBackwards p.lastMs nowMs driftMs]
        (.error (.refused (.clockMovedBackwards p.lastMs nowMs)))
  | waits {nowMs driftMs : Int64} {events : List Event} {outcome : Outcome UInt64}
      (first : taken.head? = some (.time nowMs)) (behind : nowMs.toInt < p.lastMs.toInt)
      (drift : driftMs.toInt = p.lastMs.toInt - nowMs.toInt)
      (allowed : s.policy.Allows p.lastMs nowMs)
      (events_eq : events = .waiting p.lastMs nowMs driftMs :: usedUp p taken)
      (other : ∀ lastMs ms, outcome ≠ .error (.refused (.clockMovedBackwards lastMs ms))) :
      Tells s p taken events outcome
  | goesOn {events : List Event} {outcome : Outcome UInt64}
      (noWait : ∀ nowMs, taken.head? = some (.time nowMs) → nowMs.toInt < p.lastMs.toInt →
        ¬ s.policy.Allows p.lastMs nowMs)
      (events_eq : events = usedUp p taken)
      (other : ∀ lastMs ms, outcome ≠ .error (.refused (.clockMovedBackwards lastMs ms))) :
      Tells s p taken events outcome

/-- A call that took no reading. -/
theorem Tells.ofNothing {outcome : Outcome UInt64}
    (other : ∀ lastMs ms, outcome ≠ .error (.refused (.clockMovedBackwards lastMs ms))) :
    Tells s p [] [] outcome :=
  .goesOn (by simp) usedUp_nil.symm other

/-- The distance of a reading that is behind and allowed is a word. -/
theorem fits_of_allows {policy : Policy} {lastMs ms : Int64} (behind : ms.toInt < lastMs.toInt)
    (h : policy.Allows lastMs ms) : Checked.Fits (lastMs.toInt - ms.toInt) := by
  rcases h with hle | hwithin
  · omega
  · cases policy with
    | fail => exact hwithin.elim
    | wait maxDriftMs =>
      have hmax := Checked.fits_iff.mp (Checked.fits_toInt maxDriftMs)
      simp only at hwithin
      rw [Checked.fits_iff]
      omega

theorem map_ne_movedBackwards {outcome : Outcome (UInt64 × Progress)} {lastMs ms : Int64}
    (h : outcome ≠ .error (.refused (.clockMovedBackwards lastMs ms))) :
    outcome.map Prod.fst ≠ .error (.refused (.clockMovedBackwards lastMs ms)) := by
  cases outcome with
  | ok answered => simp [Except.map]
  | error f => simpa [Except.map] using h

/-- A call whose first reading is not behind is never refused over a clock that went back. -/
theorem ne_movedBackwards_of_reached (accepts : phase.Accepts)
    (reached : p.lastMs.toInt ≤ nowMs.toInt) (lastMs ms : Int64) :
    (answer s p phase (.time nowMs :: rest)).outcome ≠
      .error (.refused (.clockMovedBackwards lastMs ms)) := by
  have hcatchUp : respond s p phase nowMs = respond s p .catchUp nowMs := by
    rw [respond_of_reached accepts reached, respond_of_reached Phase.accepts_catchUp reached]
  have hsame : answer s p phase (.time nowMs :: rest) = answer s p .catchUp (.time nowMs :: rest) := by
    simp only [answer, hcatchUp]
  rw [hsame]
  exact answer_ne_movedBackwards s p lastMs ms _ (by simp)

theorem tells_of_behind (hp : p.Sound s) (behind : nowMs.toInt < p.lastMs.toInt) :
    Tells s p ((answer s p .entry (.time nowMs :: rest)).taken (.time nowMs :: rest))
      (answer s p .entry (.time nowMs :: rest)).events
      ((answer s p .entry (.time nowMs :: rest)).outcome.map Prod.fst) := by
  have hturn := respond_entry_of_behind (s := s) behind
  unfold regress at hturn
  cases hdrift : Checked.sub p.lastMs nowMs with
  | error o =>
    -- The call breaks off. It has said nothing, and no policy waits for a distance that is no word.
    simp only [hdrift] at hturn
    have hnoWait : ¬ s.policy.Allows p.lastMs nowMs := fun hallows =>
      (Checked.word_eq_error_iff.mp hdrift).2 (fits_of_allows behind hallows)
    have hnothing : usedUp p [.time nowMs] = [] := by
      rw [usedUp_of_behind behind, usedUp_nil]
    rw [taken_of_finish hturn, answer_of_finish hturn]
    refine .goesOn ?_ hnothing.symm (by simp [Except.map])
    intro ms hfirst _
    obtain rfl : nowMs = ms := by simpa using hfirst
    exact hnoWait
  | ok driftMs =>
    have hexact := Checked.sub_eq_ok_iff.mp hdrift
    have hallows : s.policy.Allows p.lastMs nowMs ↔ s.policy.tolerates driftMs = true :=
      Policy.allows_iff_tolerates behind hdrift
    cases htolerates : s.policy.tolerates driftMs with
    | false =>
      simp only [hdrift, htolerates, Bool.false_eq_true, if_false] at hturn
      rw [taken_of_finish hturn, answer_of_finish hturn]
      refine .refuses rfl behind hexact ?_
      rw [hallows, htolerates]
      exact Bool.false_ne_true
    | true =>
      simp only [hdrift, htolerates, if_true] at hturn
      have hcatchUp : Phase.catchUp ≠ .entry := by simp
      have hother (lastMs ms : Int64) := answer_ne_movedBackwards s p lastMs ms rest hcatchUp
      rw [taken_of_ask hturn, answer_of_ask hturn]
      refine .waits rfl behind hexact (hallows.mpr htolerates) ?_ fun lastMs ms =>
        map_ne_movedBackwards (hother lastMs ms)
      rw [usedUp_of_behind behind, events_catchUp hp, List.singleton_append]

/-- **A call takes one of the three courses.** -/
theorem tells (hp : p.Sound s) (supply : List Reading) :
    Tells s p ((answer s p .entry supply).taken supply) (answer s p .entry supply).events
      ((answer s p .entry supply).outcome.map Prod.fst) := by
  cases supply with
  | nil => exact .ofNothing (by simp [answer, Except.map])
  | cons reading rest =>
    cases reading with
    | fault f => exact .ofNothing (by simp [answer, Except.map])
    | time nowMs =>
      by_cases hreached : p.lastMs.toInt ≤ nowMs.toInt
      · obtain ⟨more, htaken⟩ := exists_taken_cons s p .entry nowMs rest
        rw [htaken]
        refine .goesOn ?_ ?_ ?_
        · intro ms hfirst behind
          obtain rfl : nowMs = ms := by simpa using hfirst
          omega
        · rw [events_of_reached hp Phase.accepts_entry hreached, usedUp_of_reached hreached]
        · intro lastMs ms
          exact map_ne_movedBackwards
            (ne_movedBackwards_of_reached Phase.accepts_entry hreached lastMs ms)
      · exact tells_of_behind hp (Int.not_le.mp hreached)

theorem tells_call {g : Generator} (hg : g.Sound) (supply : List Reading) :
    Tells g.settings g.progress ((g.call supply).1.taken supply) (g.call supply).1.events
      (g.call supply).1.outcome := by
  cases hpoisoned : g.poisoned with
  | true =>
    rw [call_of_poisoned hpoisoned, Report.taken, List.take_zero]
    exact .ofNothing (by simp)
  | false =>
    rw [call_of_live hpoisoned, Report.taken_map]
    exact tells hg.progress supply

/-! ## What a listener can rely on -/

/-- The lines of a call that took these readings, and what they are worth. -/
structure Told (g : Generator) (taken : List Reading) (r : Report UInt64) : Prop where
  /-- No line, or one, or first that the call waits and then that the millisecond is used up. -/
  lines : r.events.map Event.line ∈
    [[],
     [(.warn, "clock moved backwards, waiting for it to catch up")],
     [(.debug, "sequence exhausted, spinning until next millisecond")],
     [(.warn, "clock moved backwards, waiting for it to catch up"),
      (.debug, "sequence exhausted, spinning until next millisecond")],
     [(.warn, "clock moved backwards")]]
  waiting_iff : ∀ nowMs, (∃ lastMs driftMs, .waiting lastMs nowMs driftMs ∈ r.events) ↔
    WaitsOver g taken nowMs
  exhausted_iff : ∀ ms, .sequenceExhausted ms ∈ r.events ↔
    ms = g.progress.lastMs ∧ FindsUsedUp g.progress taken
  movedBackwards_iff : ∀ lastMs nowMs,
    r.outcome = .error (.refused (.clockMovedBackwards lastMs nowMs)) ↔
      ∃ driftMs, r.events = [.movedBackwards lastMs nowMs driftMs]
  /-- The numbers of a warning are those of the generator and of the first reading. -/
  numbers : ∀ lastMs nowMs driftMs,
    .waiting lastMs nowMs driftMs ∈ r.events ∨ .movedBackwards lastMs nowMs driftMs ∈ r.events →
      lastMs = g.progress.lastMs ∧ taken.head? = some (.time nowMs) ∧
        driftMs.toInt = lastMs.toInt - nowMs.toInt ∧ 1 ≤ driftMs.toInt
  /-- The sentence of the refusal has the distance of the warning. -/
  sentence : ∀ lastMs nowMs driftMs, .movedBackwards lastMs nowMs driftMs ∈ r.events →
    (MintError.clockMovedBackwards lastMs nowMs).message =
      .ok (s!"clock moved backwards by {driftMs} ms (last issued at {lastMs}, now {nowMs}), " ++
        "refusing to generate id")
  /-- Every refusal can be put in words. -/
  inWords : ∀ cause, r.outcome = .error (.refused cause) → ∃ text, cause.message = .ok text

theorem message_of_drift {lastMs nowMs driftMs : Int64}
    (drift : driftMs.toInt = lastMs.toInt - nowMs.toInt) :
    (MintError.clockMovedBackwards lastMs nowMs).message =
      .ok (s!"clock moved backwards by {driftMs} ms (last issued at {lastMs}, now {nowMs}), " ++
        "refusing to generate id") := by
  rw [MintError.message, Checked.sub_eq_ok_iff.mpr drift]
  rfl

/-- Only one cause has arithmetic in its sentence. -/
theorem exists_message {cause : MintError}
    (h : ∀ lastMs nowMs, cause ≠ .clockMovedBackwards lastMs nowMs) :
    ∃ text, cause.message = .ok text := by
  cases cause with
  | clockMovedBackwards lastMs nowMs => exact absurd rfl (h lastMs nowMs)
  | _ => exact ⟨_, rfl⟩

theorem exists_message_of_other {outcome : Outcome UInt64} {cause : MintError}
    (other : ∀ lastMs ms, outcome ≠ .error (.refused (.clockMovedBackwards lastMs ms)))
    (h : outcome = .error (.refused cause)) : ∃ text, cause.message = .ok text := by
  apply exists_message
  rintro lastMs ms rfl
  exact other lastMs ms h

variable {g : Generator} {taken : List Reading} {driftMs : Int64} {outcome : Outcome UInt64}
  {reads : Nat}

theorem Told.ofRefuses (only : taken = [.time nowMs])
    (behind : nowMs.toInt < g.progress.lastMs.toInt)
    (drift : driftMs.toInt = g.progress.lastMs.toInt - nowMs.toInt)
    (refused : ¬ g.settings.policy.Allows g.progress.lastMs nowMs) :
    Told g taken
      { outcome := .error (.refused (.clockMovedBackwards g.progress.lastMs nowMs))
        events := [.movedBackwards g.progress.lastMs nowMs driftMs]
        reads } := by
  -- The one reading that the call took is behind, so there is none that it could go by.
  have hnone : ¬ FindsUsedUp g.progress taken := by
    intro hfinds
    have hmem := mem_usedUp.mpr ⟨rfl, hfinds⟩
    rw [only, usedUp_of_behind behind, usedUp_nil] at hmem
    simp at hmem
  refine ⟨by simp [Event.line, Event.level, Event.message], ?_, ?_, ?_, ?_, ?_, ?_⟩
  · intro ms
    rw [waitsOver_iff]
    constructor
    · simp
    · rintro ⟨hfirst, -, hallowed⟩
      obtain rfl : nowMs = ms := by simpa [only] using hfirst
      exact absurd hallowed refused
  · simp [hnone]
  · intro lastMs ms
    simp [eq_comm]
  · simp only [List.mem_singleton, reduceCtorEq, false_or, Event.movedBackwards.injEq]
    rintro lastMs ms distance ⟨rfl, rfl, rfl⟩
    exact ⟨rfl, by rw [only]; rfl, drift, by omega⟩
  · simp only [List.mem_singleton, Event.movedBackwards.injEq]
    rintro lastMs ms distance ⟨rfl, rfl, rfl⟩
    exact message_of_drift drift
  · intro cause hcause
    simp only [Except.error.injEq, Failure.refused.injEq] at hcause
    exact hcause ▸ ⟨_, message_of_drift drift⟩

theorem Told.ofWaits (first : taken.head? = some (.time nowMs))
    (behind : nowMs.toInt < g.progress.lastMs.toInt)
    (drift : driftMs.toInt = g.progress.lastMs.toInt - nowMs.toInt)
    (allowed : g.settings.policy.Allows g.progress.lastMs nowMs)
    (other : ∀ lastMs ms, outcome ≠ .error (.refused (.clockMovedBackwards lastMs ms))) :
    Told g taken
      { outcome
        events := .waiting g.progress.lastMs nowMs driftMs :: usedUp g.progress taken
        reads } := by
  refine ⟨?_, ?_, ?_, ?_, ?_, ?_, fun cause => exists_message_of_other other⟩
  · simp only [usedUp]
    split <;> simp [Event.line, Event.level, Event.message]
  · intro ms
    simp only [waitsOver_iff, List.mem_cons, Event.waiting.injEq, mem_usedUp, reduceCtorEq,
      false_and, or_false, first, Option.some.injEq, Reading.time.injEq]
    constructor
    · rintro ⟨lastMs, distance, -, rfl, -⟩
      exact ⟨rfl, behind, allowed⟩
    · rintro ⟨rfl, -, -⟩
      exact ⟨_, _, rfl, rfl, rfl⟩
  · simp [mem_usedUp]
  · intro lastMs ms
    simp [other lastMs ms]
  · simp only [List.mem_cons, mem_usedUp, reduceCtorEq, false_and, or_false, Event.waiting.injEq]
    rintro lastMs ms distance ⟨rfl, rfl, rfl⟩
    exact ⟨rfl, first, drift, by omega⟩
  · simp [mem_usedUp]

theorem Told.ofGoesOn
    (noWait : ∀ nowMs, taken.head? = some (.time nowMs) → nowMs.toInt < g.progress.lastMs.toInt →
      ¬ g.settings.policy.Allows g.progress.lastMs nowMs)
    (other : ∀ lastMs ms, outcome ≠ .error (.refused (.clockMovedBackwards lastMs ms))) :
    Told g taken { outcome, events := usedUp g.progress taken, reads } := by
  refine ⟨?_, ?_, ?_, ?_, ?_, ?_, fun cause => exists_message_of_other other⟩
  · simp only [usedUp]
    split <;> simp [Event.line, Event.level, Event.message]
  · intro ms
    rw [waitsOver_iff]
    constructor
    · simp [mem_usedUp]
    · rintro ⟨hfirst, behind, hallowed⟩
      exact absurd hallowed (noWait ms hfirst behind)
  · simp [mem_usedUp]
  · intro lastMs ms
    simp only [other lastMs ms, false_iff, not_exists]
    intro distance hevents
    have hmem := mem_usedUp.mp (hevents ▸ List.mem_singleton_self _)
    exact nomatch hmem.1
  · simp [mem_usedUp]
  · simp [mem_usedUp]

theorem Tells.told {r : Report UInt64}
    (h : Tells g.settings g.progress taken r.events r.outcome) : Told g taken r := by
  obtain ⟨outcome, events, reads⟩ := r
  cases h with
  | refuses only behind drift refused => exact .ofRefuses only behind drift refused
  | waits first behind drift allowed events_eq other =>
    subst events_eq
    exact .ofWaits first behind drift allowed other
  | goesOn noWait events_eq other =>
    subst events_eq
    exact .ofGoesOn noWait other

/-- **What a call says agrees with what happened**, whether or not it comes to an answer: each event
comes exactly when its cause does, once, and with its numbers. -/
theorem events_agree_with_results (hg : g.Reached) (supply : List Reading) :
    Told g ((g.call supply).1.taken supply) (g.call supply).1 :=
  (tells_call hg.sound supply).told

/-- A wait for the clock that is followed by a wait for the next millisecond, and a refusal. -/
theorem events_agree_through_both_waits :
    let g : Generator :=
      { settings := { policy := .wait 5 }, progress := { lastMs := 10000, sequence := 4095 } }
    let supply : List Reading :=
      [.time 9998, .time 9990, .time 10000, .time 9000, .time 10000, .time 10001]
    Told g ((g.call supply).1.taken supply) (g.call supply).1 ∧
      (g.call supply).1.events = [.waiting 10000 9998 2, .sequenceExhausted 10000] ∧
      (g.call supply).1.reads = 6 ∧
      Told g ((g.call [.time 9990]).1.taken [.time 9990]) (g.call [.time 9990]).1 ∧
      (g.call [.time 9990]).1.events = [.movedBackwards 10000 9990 10] := by
  intro g supply
  have built : (({ policy := .wait 5 } : Blueprint).build [.time 10000]).outcome =
      .ok { settings := { policy := .wait 5 } } := by rfl
  have first := Reached.called [.time 10000] (.built built)
  have reached : g.Reached :=
    first.used_up rfl ⟨by decide, by decide, by decide⟩ rfl 4095 (by decide)
  exact ⟨events_agree_with_results reached supply, by decide, by decide,
    events_agree_with_results reached [.time 9990], by decide⟩

end Generator
end IdMint

import Mathlib.Data.List.Forall2
import IdMint.Proofs.Generator.Ending
import IdMint.Proofs.Generator.Series

/-!
# Only elapsed time matters

Nothing in a generator depends on what time it is, but only on how long it is since the epoch and
since the last id. Move the epoch and every reading by the same number of milliseconds, and all calls
go as they went: they take as many readings and end in the same way, with every time that they speak
of moved along. Nor does a generator look at the marks of its machine. They stand in their ten bits
of each id, and nothing else comes of them.

One time does not move along. The last millisecond of a generator that has issued nothing is the one
before 1970 for every epoch. No reading of this file is that early, and against readings that are all
later it makes no difference where it stands (`Progress.Shifted.cases`).
-/

namespace IdMint

/-! ## What is moved -/

/-- A reading comes so much later than another, and both are of 1970 or after. A failure of the clock
stays what it is. -/
inductive Reading.Shifted (k : Int) : Reading → Reading → Prop
  | time {ms ms' : Int64} (shift : ms'.toInt = ms.toInt + k) (nonneg : 0 ≤ ms.toInt)
      (nonneg' : 0 ≤ ms'.toInt) : Shifted k (.time ms) (.time ms')
  | fault (f : ClockFault) : Shifted k (.fault f) (.fault f)

/-- Settings for any two machines, with epochs so far apart. -/
structure Settings.Shifted (k : Int) (s t : Settings) : Prop where
  valid : s.Valid
  valid' : t.Valid
  policy : t.policy = s.policy
  epochMs : t.epochMs.toInt = s.epochMs.toInt + k

/-- Two generators have come equally far. What has issued nothing stands where it began. -/
structure Progress.Shifted (k : Int) (issued : Prop) (p q : Progress) : Prop where
  sequence : q.sequence = p.sequence
  lastMs : issued → q.lastMs.toInt = p.lastMs.toInt + k
  never : ¬ issued → p.lastMs = -1 ∧ q.lastMs = -1

/-- The same event at a time moved along. Distances are not moved. -/
inductive Event.Shifted (k : Int) : Event → Event → Prop
  | sequenceExhausted {ms ms' : Int64} (ms_eq : ms'.toInt = ms.toInt + k) :
      Shifted k (.sequenceExhausted ms) (.sequenceExhausted ms')
  | waiting {lastMs lastMs' nowMs nowMs' driftMs : Int64}
      (last_eq : lastMs'.toInt = lastMs.toInt + k) (now_eq : nowMs'.toInt = nowMs.toInt + k) :
      Shifted k (.waiting lastMs nowMs driftMs) (.waiting lastMs' nowMs' driftMs)
  | movedBackwards {lastMs lastMs' nowMs nowMs' driftMs : Int64}
      (last_eq : lastMs'.toInt = lastMs.toInt + k) (now_eq : nowMs'.toInt = nowMs.toInt + k) :
      Shifted k (.movedBackwards lastMs nowMs driftMs) (.movedBackwards lastMs' nowMs' driftMs)

/-- Calls that end in the same way, with answers that are related and times moved along. Arithmetic
that left its word is not among the ways. -/
inductive EndAlike {α : Type} (k : Int) (R : α → α → Prop) : Outcome α → Outcome α → Prop
  | ok {a b : α} (related : R a b) : EndAlike k R (.ok a) (.ok b)
  | movedBackwards {lastMs lastMs' nowMs nowMs' : Int64}
      (last_eq : lastMs'.toInt = lastMs.toInt + k) (now_eq : nowMs'.toInt = nowMs.toInt + k) :
      EndAlike k R (.error (.refused (.clockMovedBackwards lastMs nowMs)))
        (.error (.refused (.clockMovedBackwards lastMs' nowMs')))
  | beforeEpoch {epochMs epochMs' nowMs nowMs' : Int64}
      (epoch_eq : epochMs'.toInt = epochMs.toInt + k) (now_eq : nowMs'.toInt = nowMs.toInt + k) :
      EndAlike k R (.error (.refused (.clockBeforeEpoch epochMs nowMs)))
        (.error (.refused (.clockBeforeEpoch epochMs' nowMs')))
  | overTimeLimit : EndAlike k R (.error (.refused .overTimeLimit)) (.error (.refused .overTimeLimit))
  | poisoned : EndAlike k R (.error (.refused .poisoned)) (.error (.refused .poisoned))
  | clockFailed (f : ClockFault) : EndAlike k R (.error (.clockFailed f)) (.error (.clockFailed f))
  | unanswered : EndAlike k R (.error .unanswered) (.error .unanswered)

/-- Reports that differ in nothing but the times that they speak of, and in what their answers may
differ in. -/
structure Report.Alike {α : Type} (k : Int) (R : α → α → Prop) (r r' : Report α) : Prop where
  outcome : EndAlike k R r.outcome r'.outcome
  events : List.Forall₂ (Event.Shifted k) r.events r'.events
  reads : r'.reads = r.reads

/-- Ids that differ at most in the ten bits for the machine, and not at all for the same marks. -/
structure SameButMarks (s t : Settings) (id id' : UInt64) : Prop where
  outside : ∀ i, i < 12 ∨ 21 < i → id'.toNat.testBit i = id.toNat.testBit i
  same : t.dataCenter = s.dataCenter → t.worker = s.worker → id' = id

theorem EndAlike.map {α β : Type} {k : Int} {R : α → α → Prop} {R' : β → β → Prop} {f : α → β}
    (hf : ∀ a b, R a b → R' (f a) (f b)) {o o' : Outcome α} (h : EndAlike k R o o') :
    EndAlike k R' (o.map f) (o'.map f) := by
  cases h with
  | ok related => exact .ok (hf _ _ related)
  | movedBackwards last_eq now_eq => exact .movedBackwards last_eq now_eq
  | beforeEpoch epoch_eq now_eq => exact .beforeEpoch epoch_eq now_eq
  | overTimeLimit => exact .overTimeLimit
  | poisoned => exact .poisoned
  | clockFailed f => exact .clockFailed f
  | unanswered => exact .unanswered

/-! ## The marks in an id -/

namespace Layout

/-- Five bits that are shifted to a place are seen in no other place. -/
theorem testBit_shiftLeft_mark {mark : UInt8} (hmark : mark.toNat < 2 ^ 5) {shift i : Nat}
    (hshift : shift < 64) (hi : i < shift ∨ shift + 5 ≤ i) :
    (mark.toUInt64 <<< UInt64.ofNat shift).toNat.testBit i = false := by
  have hplace : (UInt64.ofNat shift).toNat % 64 = shift := by
    rw [UInt64.toNat_ofNat']
    omega
  rw [UInt64.toNat_shiftLeft, hplace, UInt8.toNat_toUInt64, Nat.testBit_mod_two_pow,
    Nat.testBit_shiftLeft]
  rcases hi with hlt | hge
  · simp [Nat.not_le.mpr hlt]
  · have hlow : mark.toNat.testBit (i - shift) = false := by
      apply Nat.testBit_lt_two_pow
      exact Nat.lt_of_lt_of_le hmark (Nat.pow_le_pow_right (by decide) (by omega))
    simp [hlow]

theorem testBit_pack {dataCenter worker : UInt8} (hd : dataCenter.toNat < 2 ^ 5)
    (hw : worker.toNat < 2 ^ 5) (elapsed : UInt64) (sequence : UInt16) {i : Nat}
    (hi : i < 12 ∨ 21 < i) :
    (pack elapsed dataCenter worker sequence).toNat.testBit i =
      (pack elapsed 0 0 sequence).toNat.testBit i := by
  have hnone {mark : UInt8} (h : mark.toNat < 2 ^ 5) {shift : Nat} (hshift : shift < 64)
      (hi : i < shift ∨ shift + 5 ≤ i) :=
    testBit_shiftLeft_mark h hshift hi
  have hzero : (0 : UInt8).toNat < 2 ^ 5 := by decide
  have dataCenterPlace : dataCenterShift = 17 := rfl
  have workerPlace : workerShift = 12 := rfl
  simp only [pack, UInt64.toNat_or, Nat.testBit_or]
  rw [hnone hd (by omega) (by omega), hnone hw (by omega) (by omega),
    hnone hzero (by omega) (by omega), hnone hzero (by omega) (by omega)]

end Layout

theorem SameButMarks.ofPack {s t : Settings} (hs : s.Valid) (ht : t.Valid) (elapsed : UInt64)
    (sequence : UInt16) :
    SameButMarks s t (Layout.pack elapsed s.dataCenter s.worker sequence)
      (Layout.pack elapsed t.dataCenter t.worker sequence) where
  outside i hi := by
    rw [Layout.testBit_pack ht.dataCenter_lt ht.worker_lt elapsed sequence hi,
      Layout.testBit_pack hs.dataCenter_lt hs.worker_lt elapsed sequence hi]
  same hdataCenter hworker := by rw [hdataCenter, hworker]

/-! ## Comparing -/

theorem Checked.sub_shifted {k : Int} {a a' b b' : Int64} (ha : a'.toInt = a.toInt + k)
    (hb : b'.toInt = b.toInt + k) : Checked.sub a' b' = Checked.sub a b := by
  have hdiff : a'.toInt - b'.toInt = a.toInt - b.toInt := by omega
  rw [Checked.sub, Checked.sub, hdiff]

theorem Progress.Shifted.cases {k : Int} {issued : Prop} {p q : Progress}
    (h : Progress.Shifted k issued p q) :
    q.lastMs.toInt = p.lastMs.toInt + k ∨ p.lastMs.toInt = -1 ∧ q.lastMs.toInt = -1 := by
  by_cases hissued : issued
  · exact .inl (h.lastMs hissued)
  · obtain ⟨hp, hq⟩ := h.never hissued
    rw [hp, hq]
    exact .inr ⟨rfl, rfl⟩

namespace Generator

/-! ## Turns -/

/-- What an id comes with: the id itself, and progress that has come equally far. -/
def MintAlike (k : Int) (s t : Settings) (a b : UInt64 × Progress) : Prop :=
  SameButMarks s t a.1 b.1 ∧ Progress.Shifted k True a.2 b.2

/-- Turns that ask for the same, or end alike. -/
inductive TurnAlike (k : Int) (s t : Settings) : Turn → Turn → Prop
  | ask (phase : Phase) : TurnAlike k s t (.ask phase) (.ask phase)
  | finish {o o' : Outcome (UInt64 × Progress)} (ends : EndAlike k (MintAlike k s t) o o') :
      TurnAlike k s t (.finish o) (.finish o')

/-- Two turns with what they say. -/
structure RespondAlike (k : Int) (s t : Settings) (r r' : List Event × Turn) : Prop where
  events : List.Forall₂ (Event.Shifted k) r.1 r'.1
  turn : TurnAlike k s t r.2 r'.2

variable {k : Int} {issued : Prop} {s t : Settings} {p q : Progress} {ms ms' : Int64}

theorem endAlike_stamp (hset : s.Shifted k t) (shift : ms'.toInt = ms.toInt + k)
    (nonneg : 0 ≤ ms.toInt) (sequence : UInt16) :
    EndAlike k (MintAlike k s t) (stamp s ms sequence) (stamp t ms' sequence) := by
  obtain ⟨elapsed, helapsed⟩ : ∃ elapsed, Checked.sub ms s.epochMs = .ok elapsed :=
    Checked.exists_sub_of_fits (Checked.fits_sub_of_nonneg (by omega) hset.valid.epoch_nonneg)
  have helapsed' : Checked.sub ms' t.epochMs = .ok elapsed := by
    rw [Checked.sub_shifted shift hset.epochMs, helapsed]
  simp only [stamp, helapsed, helapsed']
  split
  · exact .overTimeLimit
  · refine .ok ⟨.ofPack hset.valid hset.valid' _ _, rfl, fun _ => shift, ?_⟩
    intro hnot
    exact absurd trivial hnot

theorem RespondAlike.ofStamp (hset : s.Shifted k t) (shift : ms'.toInt = ms.toInt + k)
    (nonneg : 0 ≤ ms.toInt) (sequence : UInt16) :
    RespondAlike k s t ([], .finish (stamp s ms sequence)) ([], .finish (stamp t ms' sequence)) :=
  ⟨.nil, .finish (endAlike_stamp hset shift nonneg sequence)⟩

theorem RespondAlike.ofAccept (hset : s.Shifted k t) (hp : p.Sound s)
    (hfar : Progress.Shifted k issued p q) (shift : ms'.toInt = ms.toInt + k)
    (nonneg : 0 ≤ ms.toInt) (nonneg' : 0 ≤ ms'.toInt) :
    RespondAlike k s t (accept s p ms) (accept t q ms') := by
  have hepoch := hset.epochMs
  have hlast := hfar.cases
  have hearly : ms' < t.epochMs ↔ ms < s.epochMs := by
    rw [Int64.lt_iff_toInt_lt, Int64.lt_iff_toInt_lt]
    omega
  have hsame : ms' = q.lastMs ↔ ms = p.lastMs := by
    rw [← Int64.toInt_inj, ← Int64.toInt_inj]
    omega
  simp only [accept, hearly, hsame, hfar.sequence, (increment_of_sound hp).1]
  split
  · exact ⟨.nil, .finish (.beforeEpoch hepoch shift)⟩
  · split
    · split
      · exact ⟨.cons (.sequenceExhausted shift) .nil, .ask _⟩
      · exact .ofStamp hset shift nonneg _
    · exact .ofStamp hset shift nonneg 0

/-- A clock that went back has gone back as far, and behind a millisecond that has moved along: there
is nothing behind the one before 1970. -/
theorem RespondAlike.ofRegress (hset : s.Shifted k t) (hfar : Progress.Shifted k issued p q)
    (shift : ms'.toInt = ms.toInt + k) (nonneg : 0 ≤ ms.toInt)
    (behind : ms.toInt < p.lastMs.toInt) :
    RespondAlike k s t (regress s p ms) (regress t q ms') := by
  -- The other case of the two would have a reading that is behind -1.
  have hlast : q.lastMs.toInt = p.lastMs.toInt + k := by
    have hcases := hfar.cases
    omega
  obtain ⟨driftMs, hdrift⟩ : ∃ driftMs, Checked.sub p.lastMs ms = .ok driftMs :=
    Checked.exists_sub_of_fits (Checked.fits_sub_of_nonneg (by omega) nonneg)
  have hdrift' : Checked.sub q.lastMs ms' = .ok driftMs := by
    rw [Checked.sub_shifted hlast shift, hdrift]
  simp only [regress, hdrift, hdrift', hset.policy]
  split
  · exact ⟨.cons (.waiting hlast shift) .nil, .ask _⟩
  · exact ⟨.cons (.movedBackwards hlast shift) .nil, .finish (.movedBackwards hlast shift)⟩

/-- **A turn goes by how its reading stands to the last millisecond and the epoch.** -/
theorem RespondAlike.ofShift (hset : s.Shifted k t) (hp : p.Sound s)
    (hfar : Progress.Shifted k issued p q) (shift : ms'.toInt = ms.toInt + k)
    (nonneg : 0 ≤ ms.toInt) (nonneg' : 0 ≤ ms'.toInt) (phase : Phase) :
    RespondAlike k s t (respond s p phase ms) (respond t q phase ms') := by
  have hlast := hfar.cases
  have hbehind : ms' < q.lastMs ↔ ms < p.lastMs := by
    rw [Int64.lt_iff_toInt_lt, Int64.lt_iff_toInt_lt]
    omega
  have hnotPast : ms' ≤ q.lastMs ↔ ms ≤ p.lastMs := by
    rw [Int64.le_iff_toInt_le, Int64.le_iff_toInt_le]
    omega
  cases phase with
  | entry =>
    simp only [respond, hbehind]
    split
    · rename_i hlt
      exact .ofRegress hset hfar shift nonneg (Int64.lt_iff_toInt_lt.mp hlt)
    · exact .ofAccept hset hp hfar shift nonneg nonneg'
  | catchUp =>
    simp only [respond, hbehind]
    split
    · exact ⟨.nil, .ask _⟩
    · exact .ofAccept hset hp hfar shift nonneg nonneg'
  | nextMillisecond =>
    simp only [respond, hnotPast]
    split
    · exact ⟨.nil, .ask _⟩
    · exact .ofStamp hset shift nonneg 0

/-! ## Calls -/

theorem answer_shifted (hset : s.Shifted k t) (hp : p.Sound s)
    (hfar : Progress.Shifted k issued p q) {supply supply' : List Reading}
    (hsupply : List.Forall₂ (Reading.Shifted k) supply supply') (phase : Phase) :
    Report.Alike k (MintAlike k s t) (answer s p phase supply) (answer t q phase supply') := by
  induction hsupply generalizing phase with
  | nil => exact ⟨.unanswered, .nil, rfl⟩
  | cons hfirst _ ih =>
    cases hfirst with
    | fault f => exact ⟨.clockFailed f, .nil, rfl⟩
    | @time ms ms' shift nonneg nonneg' =>
      obtain ⟨hevents, hturns⟩ := RespondAlike.ofShift hset hp hfar shift nonneg nonneg' phase
      cases hturn : respond s p phase ms with
      | mk events turn =>
        cases hturn' : respond t q phase ms' with
        | mk events' turn' =>
          rw [hturn, hturn'] at hevents hturns
          cases hturns with
          | finish ends =>
            rw [answer_of_finish hturn, answer_of_finish hturn']
            exact ⟨ends, hevents, rfl⟩
          | ask phase' =>
            have hlater := ih phase'
            rw [answer_of_ask hturn, answer_of_ask hturn']
            exact ⟨hlater.outcome, List.rel_append hevents hlater.events,
              congrArg (· + 1) hlater.reads⟩

/-- Two generators that keep abreast of each other. -/
structure Abreast (k : Int) (issued : Prop) (g h : Generator) : Prop where
  sound : g.Sound
  sound' : h.Sound
  settings : g.settings.Shifted k h.settings
  progress : g.progress.Shifted k issued h.progress
  poisoned : h.poisoned = g.poisoned

/-- Some call issued an id. -/
def IssuesAny (reports : List (Report UInt64)) : Prop := ∃ r ∈ reports, ∃ id, r.outcome = .ok id

theorem issuesAny_cons {r : Report UInt64} {rest : List (Report UInt64)} :
    IssuesAny (r :: rest) ↔ (∃ id, r.outcome = .ok id) ∨ IssuesAny rest := by
  simp only [IssuesAny, List.exists_mem_cons_iff]

variable {g h : Generator}

/-- After calls that ended alike, generators are abreast if they were before; and if the calls issued
ids, they have come equally far since the epoch. -/
theorem Abreast.settle (hab : Abreast k issued g h) {o o' : Outcome (UInt64 × Progress)}
    (ends : EndAlike k (MintAlike k g.settings h.settings) o o') :
    (h.settle o').poisoned = (g.settle o).poisoned ∧
      Progress.Shifted k (issued ∨ ∃ id, o.map Prod.fst = .ok id) (g.settle o).progress
        (h.settle o').progress := by
  have hprogress := hab.progress
  cases ends with
  | @ok minted minted' related =>
    obtain ⟨-, hfar⟩ := related
    refine ⟨hab.poisoned, hfar.sequence, fun _ => hfar.lastMs trivial, ?_⟩
    intro hnot
    exact absurd (.inr ⟨minted.1, rfl⟩) hnot
  | clockFailed f =>
    exact ⟨rfl, by simpa [Generator.settle, Failure.isCrash, Except.map] using hprogress⟩
  | movedBackwards | beforeEpoch | overTimeLimit | poisoned | unanswered =>
    exact ⟨hab.poisoned, by simpa [Generator.settle, Failure.isCrash, Except.map] using hprogress⟩

theorem Abreast.call (hab : Abreast k issued g h) {supply supply' : List Reading}
    (hsupply : List.Forall₂ (Reading.Shifted k) supply supply') :
    Report.Alike k (SameButMarks g.settings h.settings) (g.call supply).1 (h.call supply').1 ∧
      Abreast k (issued ∨ ∃ id, (g.call supply).1.outcome = .ok id) (g.call supply).2
        (h.call supply').2 := by
  have hsettings : (g.call supply).2.settings.Shifted k (h.call supply').2.settings := by
    rw [settings_call, settings_call]
    exact hab.settings
  cases hpoisoned : g.poisoned with
  | true =>
    have hpoisoned' : h.poisoned = true := by rw [hab.poisoned, hpoisoned]
    rw [call_of_poisoned hpoisoned, call_of_poisoned hpoisoned']
    refine ⟨⟨.poisoned, .nil, rfl⟩, hab.sound, hab.sound', hab.settings, ?_, hab.poisoned⟩
    simpa using hab.progress
  | false =>
    have hpoisoned' : h.poisoned = false := by rw [hab.poisoned, hpoisoned]
    have hanswer := answer_shifted hab.settings hab.sound.progress hab.progress hsupply .entry
    have houtcome : EndAlike k (SameButMarks g.settings h.settings) _ _ :=
      hanswer.outcome.map (f := Prod.fst) fun _ _ related => related.1
    have hsettle := hab.settle hanswer.outcome
    have hsound := hab.sound.call supply
    have hsound' := hab.sound'.call supply'
    rw [call_of_live hpoisoned] at hsound hsettings ⊢
    rw [call_of_live hpoisoned'] at hsound' hsettings ⊢
    exact ⟨⟨houtcome, hanswer.events, hanswer.reads⟩, hsound, hsound', hsettings, hsettle.2,
      hsettle.1⟩

/-! ## Runs -/

theorem Abreast.series (hab : Abreast k issued g h) {stream stream' : List Reading}
    (hstream : List.Forall₂ (Reading.Shifted k) stream stream') (n : Nat) :
    List.Forall₂ (Report.Alike k (SameButMarks g.settings h.settings)) (g.series stream n).1
        (h.series stream' n).1 ∧
      Abreast k (issued ∨ IssuesAny (g.series stream n).1) (g.series stream n).2
        (h.series stream' n).2 := by
  induction n generalizing issued g h stream stream' with
  | zero =>
    refine ⟨.nil, ?_⟩
    simpa [Generator.series, IssuesAny] using hab
  | succ n ih =>
    obtain ⟨hreport, hafter⟩ := hab.call hstream
    -- The calls took as many readings, so what is left of the streams is still in step.
    have hrest : List.Forall₂ (Reading.Shifted k) (stream.drop (g.call stream).1.reads)
        (stream'.drop (h.call stream').1.reads) := by
      rw [hreport.reads]
      exact List.forall₂_drop _ hstream
    obtain ⟨hreports, hlater⟩ := ih hafter hrest
    rw [settings_call, settings_call] at hreports
    rw [series_succ, series_succ, issuesAny_cons, ← or_assoc]
    exact ⟨.cons hreport hreports, hlater⟩

/-- Two runs correspond, call by call, and so do the generators after them. -/
structure Correspond (k : Int) (s t : Settings) (run run' : List (Report UInt64) × Generator) :
    Prop where
  reports : List.Forall₂ (Report.Alike k (SameButMarks s t)) run.1 run'.1
  poisoned : run'.2.poisoned = run.2.poisoned
  sequence : run'.2.progress.sequence = run.2.progress.sequence
  lastMs : IssuesAny run.1 → run'.2.progress.lastMs.toInt = run.2.progress.lastMs.toInt + k
  never : ¬ IssuesAny run.1 → run.2.progress.lastMs = -1 ∧ run'.2.progress.lastMs = -1

/-- **Only elapsed time matters, and marks only mark.** Take two generators with one policy, whatever
their marks, and run them on readings that are as far apart as their epochs, and all of 1970 or
after. Their runs correspond, of whatever length. -/
theorem only_elapsed_time_matters {b b' : Blueprint} {reading reading' : List Reading}
    (built : (b.build reading).outcome = .ok g) (built' : (b'.build reading').outcome = .ok h)
    (policy : h.settings.policy = g.settings.policy)
    (epoch : h.settings.epochMs.toInt = g.settings.epochMs.toInt + k)
    {stream stream' : List Reading}
    (shifted : List.Forall₂ (Reading.Shifted k) stream stream') (n : Nat) :
    Correspond k g.settings h.settings (g.series stream n) (h.series stream' n) := by
  obtain ⟨hvalid, hnew, hlive⟩ := Blueprint.build_ok built
  obtain ⟨hvalid', hnew', hlive'⟩ := Blueprint.build_ok built'
  have hprogress : g.progress.Shifted k False h.progress := by
    rw [hnew, hnew']
    exact ⟨rfl, False.elim, fun _ => ⟨rfl, rfl⟩⟩
  have hab : Abreast k False g h :=
    ⟨.ofBuild built, .ofBuild built', ⟨hvalid, hvalid', policy, epoch⟩, hprogress,
      by rw [hlive, hlive']⟩
  obtain ⟨hreports, hafter⟩ := hab.series shifted n
  rw [false_or] at hafter
  exact ⟨hreports, hafter.poisoned, hafter.progress.sequence, hafter.progress.lastMs,
    hafter.progress.never⟩

/-- The last worker of the last data center, and another one with an epoch that is 400 milliseconds
earlier: before the first id, over a wait, and into a refusal. -/
theorem only_elapsed_time_matters_over_setbacks :
    let g : Generator :=
      { settings := { epochMs := 1000, dataCenter := 31, worker := 31, policy := .wait 5 } }
    let h : Generator := { settings := { epochMs := 600, worker := 7, policy := .wait 5 } }
    let stream : List Reading := [.time 999, .time 3000, .time 2998, .time 3000, .time 900]
    let stream' : List Reading := [.time 599, .time 2600, .time 2598, .time 2600, .time 500]
    Correspond (-400) g.settings h.settings (g.series stream 4) (h.series stream' 4) ∧
      (g.series stream 4).1.map Report.reads = [1, 1, 2, 1] ∧
      (h.series stream' 4).2.progress = { lastMs := 2600, sequence := 1 } := by
  intro g h stream stream'
  have built : (({ epochMs := 1000, dataCenter := 31, worker := 31, policy := .wait 5 } :
      Blueprint).build [.time 2000]).outcome = .ok g := by rfl
  have built' : (({ epochMs := 600, worker := 7, policy := .wait 5 } :
      Blueprint).build [.time 2000]).outcome = .ok h := by rfl
  have shifted : List.Forall₂ (Reading.Shifted (-400)) stream stream' := by
    refine .cons ?_ (.cons ?_ (.cons ?_ (.cons ?_ (.cons ?_ .nil))))
    all_goals exact .time (by decide) (by decide) (by decide)
  exact ⟨only_elapsed_time_matters built built' rfl (by decide) shifted 4, by decide, by decide⟩

end Generator
end IdMint

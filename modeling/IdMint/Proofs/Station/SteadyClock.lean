import IdMint.Proofs.Generator.Ending
import IdMint.Proofs.Station.Basic

/-!
# On a clock that never goes back

A clock that never goes back gives a generator nothing to complain of until its time is up. The
check against the epoch was made once, when the generator was built, and every later reading is a
later time.

The invariant is `Calm`: nothing ahead on the clock lies before the epoch, or behind the last issued
millisecond. From there a call can end in three ways only (`Generator.EndsCalmly`): with an id,
because it comes too late, or for want of readings, and then it had reason to wait, as the clock
still stood at a millisecond that was used up (`Generator.UsedUp`). However it ends, all that is
left of the clock is at or after its last reading, so the next call starts from there again.

A call that comes too late leaves no mark on its generator, and the next one compares its readings
with a millisecond long past. That the time stays up is owed to the clock alone: what is ahead of it
is later than the reading that was too late.
-/

namespace IdMint
namespace Generator

variable {s : Settings} {p : Progress} {g : Generator} {times : List Int64}

/-! ## Waiting -/

/-- A call that goes on waiting for the next millisecond has not seen it. -/
theorem le_of_starved
    (h : (answer s p .nextMillisecond (times.map .time)).starved = true) :
    ∀ ms ∈ times, ms.toInt ≤ p.lastMs.toInt := by
  induction times with
  | nil => simp
  | cons ms rest ih =>
    rw [List.map_cons] at h
    by_cases hle : ms.toInt ≤ p.lastMs.toInt
    · rw [answer_of_ask (respond_of_notPast hle)] at h
      exact List.forall_mem_cons.mpr ⟨hle, ih h⟩
    · simp [starved_of_finish (respond_of_past (Int.not_le.mp hle))] at h

/-- A reading that is not behind is waited on for one reason: it is the last issued millisecond, and
the sequence is at its end. -/
theorem usedUp_of_ask {phase : Phase} {ms : Int64} {events : List Event} (hp : p.Sound s)
    (hreached : p.lastMs.toInt ≤ ms.toInt) (h : respond s p .entry ms = (events, .ask phase)) :
    phase = .nextMillisecond ∧ ms = p.lastMs ∧ p.sequence.toNat + 1 = 2 ^ 12 := by
  generalize hturn : Turn.ask phase = turn at h
  cases Responds.ofEq h with
  | exhausted _ same _ increment around =>
    obtain ⟨hinc, hsucc⟩ := increment_of_sound hp
    obtain rfl := Except.ok.inj (hinc.symm.trans increment)
    have hmask := toNat_and_maxSequence (p.sequence + 1)
    rw [around, hsucc, UInt16.toNat_zero] at hmask
    have hlt := hp.sequence_lt
    exact ⟨Turn.ask.inj hturn, same, by omega⟩
  | waits behind => omega
  | outOfReach | movedBackwards | beforeEpoch | sequenceOverflow => simp at hturn
  | sameMillisecond | laterMillisecond => simp at hturn

/-- The generator has used up its last millisecond, and the times do not go beyond it. -/
def UsedUp (p : Progress) (times : List Int64) : Prop :=
  ∀ ms ∈ times, ms = p.lastMs ∧ p.sequence.toNat + 1 = 2 ^ 12

theorem UsedUp.ofStarved (hp : p.Sound s) (hreached : ∀ ms ∈ times, p.lastMs.toInt ≤ ms.toInt)
    (h : (answer s p .entry (times.map .time)).starved = true) : UsedUp p times := by
  cases times with
  | nil => simp [UsedUp]
  | cons ms rest =>
    obtain ⟨hfirst, hrest⟩ := List.forall_mem_cons.mp hreached
    rw [List.map_cons] at h
    obtain ⟨events, turn, hturn⟩ : ∃ events turn, respond s p .entry ms = (events, turn) :=
      ⟨_, _, rfl⟩
    cases turn with
    | finish outcome =>
      simp [starved_of_finish hturn] at h
    | ask phase =>
      obtain ⟨rfl, hsame, hfull⟩ := usedUp_of_ask hp hfirst hturn
      rw [answer_of_ask hturn] at h
      refine List.forall_mem_cons.mpr ⟨⟨hsame, hfull⟩, ?_⟩
      intro ms' hms'
      have hle := le_of_starved h ms' hms'
      have hge := hrest ms' hms'
      exact ⟨Int64.toInt_inj.mp (Int.le_antisymm hle hge), hfull⟩

/-! ## One call -/

/-- The three ways in which a call on times that are all reached can end. -/
inductive EndsCalmly (g : Generator) (times : List Int64) (r : Report UInt64) (g' : Generator) :
    Prop
  | unanswered (outcome : r.outcome = .error .unanswered) (usedUp : UsedUp g.progress times)
      (left : times.drop r.reads = []) (same : g' = g)
  | issued {before : List Int64} {ms : Int64} {id : UInt64}
      (taken : times.take r.reads = before ++ [ms])
      (inTime : ms.toInt < g.settings.epochMs.toInt + 2 ^ 41) (outcome : r.outcome = .ok id)
      (lastMs : g'.progress.lastMs = ms)
  | tooLate {before : List Int64} {ms : Int64} (taken : times.take r.reads = before ++ [ms])
      (late : g.settings.epochMs.toInt + 2 ^ 41 ≤ ms.toInt)
      (outcome : r.outcome = .error (.refused .overTimeLimit)) (same : g' = g)

theorem mem_of_take_eq {before : List Int64} {last : Int64} {k : Nat}
    (htake : times.take k = before ++ [last]) : last ∈ times := by
  apply List.mem_of_mem_take
  rw [htake]
  exact List.mem_append_right before List.mem_cons_self

/-- A call that ends for want of readings has come to the end of the times. -/
theorem EndsCalmly.ofStarved (hg : g.Sound) (hlive : g.poisoned = false)
    (hlast : ∀ ms ∈ times, g.progress.lastMs.toInt ≤ ms.toInt)
    (h : (g.call (times.map .time)).1.starved = true) :
    EndsCalmly g times (g.call (times.map .time)).1 (g.call (times.map .time)).2 := by
  have houtcome : (g.call (times.map .time)).1.outcome = .error .unanswered := by
    cases hr : (g.call (times.map .time)).1.outcome with
    | ok id => simp [Report.starved, hr] at h
    | error f =>
      cases f with
      | unanswered => rfl
      | clockFailed f => simpa using fault_mem_of_clockFailed hr
      | refused | overflowed => simp [Report.starved, hr] at h
  have hsame : (g.call (times.map .time)).2 = g := eq_of_error houtcome rfl
  have husedUp : UsedUp g.progress times := by
    apply UsedUp.ofStarved hg.progress hlast
    simpa [call, hlive] using h
  refine .unanswered houtcome husedUp ?_ hsame
  rcases later_of_starved g _ h with hnone | hpoisoned
  · rwa [← List.map_drop, List.map_eq_nil_iff] at hnone
  · simp [hsame, hlive] at hpoisoned

/-- **On times that are all reached, a call issues an id until the time is up.** -/
theorem endsCalmly (hg : g.Sound) (hlive : g.poisoned = false)
    (hepoch : ∀ ms ∈ times, g.settings.epochMs.toInt ≤ ms.toInt)
    (hlast : ∀ ms ∈ times, g.progress.lastMs.toInt ≤ ms.toInt) :
    EndsCalmly g times (g.call (times.map .time)).1 (g.call (times.map .time)).2 := by
  cases hstarved : (g.call (times.map .time)).1.starved with
  | true => exact .ofStarved hg hlive hlast hstarved
  | false =>
    obtain ⟨before, ms, phase, events, outcome, htaken, hfinishes, -, houtcome, hsettle⟩ :=
      exists_finishes hg hlive hstarved
    obtain ⟨front, hfront⟩ :
        ∃ front, times.take (g.call (times.map .time)).1.reads = front ++ [ms] := by
      rw [Report.taken, ← List.map_take] at htaken
      obtain ⟨front, last, hsplit, -, hone⟩ := List.map_eq_append_iff.mp htaken
      obtain ⟨ms', rfl, htime⟩ := List.map_eq_singleton_iff.mp hone
      obtain rfl : ms' = ms := Reading.time.inj htime
      exact ⟨front, hsplit⟩
    have hmem : ms ∈ times := mem_of_take_eq hfront
    have hms := hepoch ms hmem
    have hreached := hlast ms hmem
    cases hfinishes with
    | outOfReach behind => omega
    | movedBackwards behind => omega
    | beforeEpoch _ early => omega
    | issued _ inTime lastMs =>
      refine .issued hfront inTime houtcome ?_
      rw [hsettle]
      exact lastMs
    | tooLate _ late => exact .tooLate hfront late houtcome (eq_of_error houtcome rfl)

theorem EndsCalmly.crashed_eq {r : Report UInt64} {g' : Generator} (h : EndsCalmly g times r g') :
    r.crashed = false := by
  cases h with
  | unanswered outcome => simp [Report.crashed, outcome, Failure.isCrash]
  | issued _ _ outcome => simp [Report.crashed, outcome]
  | tooLate _ _ outcome => simp [Report.crashed, outcome, Failure.isCrash]

theorem EndsCalmly.spent_eq {r : Report UInt64} {g' : Generator} (h : EndsCalmly g times r g') :
    r.spent = r.reads := by
  cases h with
  | unanswered outcome => simp [Report.spent, outcome]
  | issued _ _ outcome => simp [Report.spent, outcome]
  | tooLate _ _ outcome => simp [Report.spent, outcome]

/-- On a clock that never goes back, what a call leaves is at or after the last of what it took. -/
theorem le_of_mem_drop {before : List Int64} {last : Int64} {k : Nat}
    (steady : times.Pairwise fun a b => a.toInt ≤ b.toInt)
    (htake : times.take k = before ++ [last]) : ∀ ms ∈ times.drop k, last.toInt ≤ ms.toInt := by
  rw [← List.take_append_drop k times, List.pairwise_append] at steady
  apply steady.2.2 last
  rw [htake]
  exact List.mem_append_right before List.mem_cons_self

end Generator

namespace Station

open Fleet (Ref)
open Shop (Entry)
open Generator (EndsCalmly UsedUp endsCalmly le_of_mem_drop mem_of_take_eq)

variable {log : List Entry} {t : Station} {ref : Ref} {g : Generator} {times : List Int64}

/-! ## Runs -/

/-- A call on this generator was answered that the time is up. -/
def TimeUpOn (log : List Entry) (ref : Ref) : Prop :=
  SomeCall (·.outcome = .error (.refused .overTimeLimit)) log ref

/-- A generator on a clock that never goes back, with these times ahead. -/
structure Calm (log : List Entry) (t : Station) (ref : Ref) (g : Generator) (times : List Int64) :
    Prop where
  held : t.fleet.get? ref = some g
  sound : g.Sound
  live : g.poisoned = false
  ahead : t.clocks g.clock = times.map .time
  steady : times.Pairwise fun a b => a.toInt ≤ b.toInt
  epoch_le : ∀ ms ∈ times, g.settings.epochMs.toInt ≤ ms.toInt
  last_le : ∀ ms ∈ times, g.progress.lastMs.toInt ≤ ms.toInt
  timeUp : TimeUpOn log ref → ∀ ms ∈ times, g.settings.epochMs.toInt + 2 ^ 41 ≤ ms.toInt

theorem Calm.call_eq (h : Calm log t ref g times) :
    (t.call ref).1 = (g.call (times.map .time)).1 ∧
      (t.call ref).2.fleet.get? ref = some (g.call (times.map .time)).2 := by
  rw [← h.ahead]
  refine ⟨by rw [call_of_get? h.held], ?_⟩
  exact Shop.get?_call_self (K := .lists) h.held

theorem Calm.ends (h : Calm log t ref g times) :
    EndsCalmly g times (g.call (times.map .time)).1 (g.call (times.map .time)).2 :=
  endsCalmly h.sound h.live h.epoch_le h.last_le

/-- A call leaves its generator where it can be called again. -/
theorem Calm.call (h : Calm log t ref g times) :
    Calm (log ++ [{ ref, report := (t.call ref).1 }]) (t.call ref).2 ref
      (g.call (times.map .time)).2 (times.drop (g.call (times.map .time)).1.reads) := by
  obtain ⟨hreport, hheld⟩ := h.call_eq
  have hends := h.ends
  rw [hreport]
  refine ⟨hheld, h.sound.call _, ?_, ?_, h.steady.drop, ?_, ?_, ?_⟩
  · rw [Generator.poisoned_call, h.live, hends.crashed_eq]
    rfl
  · rw [Generator.clock_call, call_of_get? h.held, h.ahead, hends.spent_eq, List.map_drop,
      ← h.ahead]
    exact clocks_pass_self _ g.clock _
  · rw [Generator.settings_call]
    exact fun ms hms => h.epoch_le ms (List.mem_of_mem_drop hms)
  · intro ms hms
    cases hends with
    | unanswered _ _ _ same | tooLate _ _ _ same =>
      rw [same]
      exact h.last_le ms (List.mem_of_mem_drop hms)
    | issued taken _ _ lastMs =>
      rw [lastMs]
      exact le_of_mem_drop h.steady taken ms hms
  · rw [Generator.settings_call, TimeUpOn, someCall_append]
    rintro (hbefore | hnow) ms hms
    · exact h.timeUp hbefore ms (List.mem_of_mem_drop hms)
    · -- The call itself came too late, so all that it leaves is too late.
      have hanswer : (g.call (times.map .time)).1.outcome = .error (.refused .overTimeLimit) := by
        simpa [SomeCall] using hnow
      cases hends with
      | unanswered outcome => simp [outcome] at hanswer
      | issued _ _ outcome => simp [outcome] at hanswer
      | tooLate taken late => exact Int.le_trans late (le_of_mem_drop h.steady taken ms hms)

/-- Other moves take readings of the clock at most. -/
theorem Calm.step_of_ne (h : Calm log t ref g times) {m : Move} (hm : m ≠ .call ref) :
    ∃ k, Calm (log ++ (t.step m).1) (t.step m).2 ref g (times.drop k) := by
  obtain ⟨k, hdrop⟩ := t.exists_drop_step m g.clock
  refine ⟨k, get?_step_of_ne hm h.held, h.sound, h.live, ?_, h.steady.drop, ?_, ?_, ?_⟩
  · rw [hdrop, h.ahead, List.map_drop]
  · exact fun ms hms => h.epoch_le ms (List.mem_of_mem_drop hms)
  · exact fun ms hms => h.last_le ms (List.mem_of_mem_drop hms)
  · rw [TimeUpOn, someCall_step_of_ne hm]
    exact fun hbefore ms hms => h.timeUp hbefore ms (List.mem_of_mem_drop hms)

/-- The generator is calm, and set as it was built. -/
def CalmAs (g : Generator) (ref : Ref) (log : List Entry) (t : Station) : Prop :=
  ∃ g' times, Calm log t ref g' times ∧ g'.settings = g.settings ∧ g'.clock = g.clock

theorem CalmAs.step (h : CalmAs g ref log t) (m : Move) :
    CalmAs g ref (log ++ (t.step m).1) (t.step m).2 := by
  obtain ⟨g', times, hcalm, hsettings, hclock⟩ := h
  by_cases hm : m = .call ref
  · subst hm
    refine ⟨_, _, hcalm.call, ?_, ?_⟩
    · rw [Generator.settings_call, hsettings]
    · rw [Generator.clock_call, hclock]
  · obtain ⟨k, hafter⟩ := hcalm.step_of_ne hm
    exact ⟨g', _, hafter, hsettings, hclock⟩

/-- The check that was made at the first reading is good for all that come after it. -/
theorem CalmAs.ofBuild {s : Station} {b : Blueprint} (ahead : s.clocks b.clock = times.map .time)
    (steady : times.Pairwise fun a b => a.toInt ≤ b.toInt)
    (built : (s.build b).1.outcome = .ok g) :
    CalmAs g (s.fleet.add g).1 [] (s.build b).2 := by
  rw [report_build] at built
  obtain ⟨nowMs, rest, settings, hsupply, hnonneg, hvalid, hg, hreads⟩ :=
    Blueprint.exists_validate_of_build built
  rw [ahead] at hsupply
  obtain ⟨first, later, rfl, hfirst, -⟩ := List.map_eq_cons_iff.mp hsupply
  obtain rfl : first = nowMs := Reading.time.inj hfirst
  obtain ⟨hchecked, -, -, hepochMs, -⟩ := Blueprint.validate_eq_ok_iff.mp hvalid
  obtain ⟨hfirst_le, hlater⟩ := List.pairwise_cons.mp steady
  have hepoch : ∀ ms ∈ later, g.settings.epochMs.toInt ≤ ms.toInt := by
    intro ms hms
    rw [hg, hepochMs]
    exact Int.le_trans hchecked (hfirst_le ms hms)
  have hspent : (b.build (s.clocks b.clock)).spent = 1 := by
    simp [Report.spent, built, hreads]
  have hclock : g.clock = b.clock := by rw [hg]
  refine ⟨g, later, ⟨?_, .ofBuild built, ?_, ?_, hlater, hepoch, ?_, ?_⟩, rfl, rfl⟩
  · rw [build_of_ok built, Fleet.get?_add, if_pos rfl]
  · rw [hg]
  · rw [build_of_ok built, hspent, hclock]
    exact (clocks_pass_self s b.clock 1).trans (congrArg (List.drop 1) ahead)
  · -- Before the first id, the last millisecond is the one before 1970.
    intro ms hms
    have hnew : g.progress.lastMs.toInt = -1 := by
      rw [hg]
      rfl
    have hle := hepoch ms hms
    rw [hg, hepochMs] at hle
    omega
  · simp [TimeUpOn, SomeCall]

/-- What a call comes to after a run with these calls. -/
structure Undisturbed (g : Generator) (log : List Entry) (t : Station) (ref : Ref) : Prop where
  answers : (∃ id, (t.call ref).1.outcome = .ok id) ∨
    (t.call ref).1.outcome = .error (.refused .overTimeLimit) ∨
    (t.call ref).1.outcome = .error .unanswered
  timeUp_iff : (t.call ref).1.outcome ≠ .error .unanswered →
    ((t.call ref).1.outcome = .error (.refused .overTimeLimit) ↔
      ∃ ms, ((t.call ref).1.taken (t.clocks g.clock)).getLast? = some (.time ms) ∧
        g.settings.epochMs.toInt + 2 ^ 41 ≤ ms.toInt)
  forGood : TimeUpOn log ref → (t.call ref).1.outcome ≠ .error .unanswered →
    (t.call ref).1.outcome = .error (.refused .overTimeLimit)
  /-- There is nothing to wait for but that a used up millisecond comes to its end. -/
  waits : (t.call ref).1.outcome = .error .unanswered →
    (t.call ref).2.clocks g.clock = [] ∧
      ∃ g' times, t.fleet.get? ref = some g' ∧ t.clocks g.clock = times.map .time ∧
        UsedUp g'.progress times

theorem CalmAs.undisturbed (h : CalmAs g ref log t) : Undisturbed g log t ref := by
  obtain ⟨g', times, hcalm, hsettings, hclock⟩ := h
  obtain ⟨hreport, -⟩ := hcalm.call_eq
  have hafter := hcalm.call.ahead
  have hlimit := hcalm.timeUp
  rw [Generator.clock_call, hclock] at hafter
  rw [hsettings] at hlimit
  have htaken : (t.call ref).1.taken (t.clocks g.clock) =
      (times.take (g'.call (times.map .time)).1.reads).map .time := by
    rw [hreport, ← hclock, hcalm.ahead, Report.taken, List.map_take]
  cases hcalm.ends with
  | unanswered outcome usedUp left =>
    rw [← hreport] at outcome
    rw [left] at hafter
    refine ⟨.inr (.inr outcome), fun h => absurd outcome h, fun _ h => absurd outcome h, ?_⟩
    intro _
    exact ⟨hafter, g', times, hcalm.held, hclock ▸ hcalm.ahead, usedUp⟩
  | @issued before ms id taken inTime outcome =>
    rw [hsettings] at inTime
    rw [taken] at htaken
    rw [← hreport] at outcome
    refine ⟨.inl ⟨id, outcome⟩, ?_, ?_, ?_⟩
    · intro _
      rw [outcome, htaken]
      simpa using inTime
    · -- Had the time been up before, this reading would have been too late.
      intro hbefore
      have hmem : ms ∈ times := mem_of_take_eq taken
      have hlate := hlimit hbefore ms hmem
      omega
    · simp [outcome]
  | @tooLate before ms taken late outcome =>
    rw [hsettings] at late
    rw [taken] at htaken
    rw [← hreport] at outcome
    refine ⟨.inr (.inl outcome), ?_, fun _ _ => outcome, ?_⟩
    · intro _
      rw [outcome, htaken]
      simpa using late
    · simp [outcome]

/-- **A clock that never goes back does not disturb a generator**, whoever else reads it and
whatever becomes of them. -/
theorem undisturbed_of_steady {s : Station} {b : Blueprint} {g : Generator} {times : List Int64}
    (ahead : s.clocks b.clock = times.map .time)
    (steady : times.Pairwise fun a b => a.toInt ≤ b.toInt)
    (built : (s.build b).1.outcome = .ok g) (moves : List Move) :
    Undisturbed g ((s.build b).2.run moves).1 ((s.build b).2.run moves).2 (s.fleet.add g).1 := by
  have hrun := run_induction (P := CalmAs g (s.fleet.add g).1) (fun _ _ m h => h.step m)
    (CalmAs.ofBuild ahead steady built) moves
  exact hrun.undisturbed

/-- The last millisecond of a generator, seen by somebody else as well, and what comes after it. -/
theorem undisturbed_of_steady_beyond_limit :
    let b : Blueprint := { epochMs := 1000 }
    let g : Generator := { settings := { epochMs := 1000 } }
    let times : List Int64 :=
      [1000, 1000, 2199023256551, 2199023256551, 2199023256552, 2199023256560]
    let s : Station := { clocks := fun _ => times.map .time }
    let moves : List Move := [.call 0, .read .system 1, .call 0, .call 0]
    let r := (s.build b).2.run moves
    (times.Pairwise fun a b => a.toInt ≤ b.toInt) ∧ (s.build b).1.outcome = .ok g ∧
      Undisturbed g r.1 r.2 0 ∧ TimeUpOn r.1 0 ∧
      (r.2.call 0).1.outcome = .error (.refused .overTimeLimit) := by
  exact ⟨by decide, by rfl, undisturbed_of_steady rfl (by decide) (by rfl) _,
    ⟨_, List.getElem_mem (show 2 < _ by decide), by rfl, by rfl⟩, by rfl⟩

end Station
end IdMint

import IdMint.Proofs.Generator.Turn

/-!
# The readings of a call

A call takes readings from the front of its supply, one for each turn, and ends with a turn. What it
took is `Report.taken`, and three things are true of it.

* A call never looks further. Whatever comes after what it took, the call goes the same way
  (`call_taken_append`), unless it ended for want of readings (`Report.starved`): then more of them
  may well change its end.
* A call that ended for want of readings has left none to take (`later_of_starved`).
* The last reading taken is the millisecond of the id, if there is one (`getLast?_taken`): the call
  may have waited on the way, but it stamps an id with the reading that ended the wait.
-/

namespace IdMint

namespace Report

/-- The readings that a request took, of those that it could take. -/
def taken {α : Type} (r : Report α) (supply : List Reading) : List Reading := supply.take r.reads

/-- Whether a request ended because there was nothing more to read. -/
def starved {α : Type} (r : Report α) : Bool :=
  match r.outcome with
  | .error .unanswered | .error (.clockFailed _) => true
  | _ => false

/-- Whether a request was broken off in the middle. -/
def crashed {α : Type} (r : Report α) : Bool :=
  match r.outcome with
  | .error f => f.isCrash
  | .ok _ => false

@[simp] theorem taken_map {α β : Type} (f : α → β) (r : Report α) (supply : List Reading) :
    (r.map f).taken supply = r.taken supply := rfl

@[simp] theorem starved_map {α β : Type} (f : α → β) (r : Report α) :
    (r.map f).starved = r.starved := by
  cases h : r.outcome with
  | ok a => simp [starved, map, h, Except.map]
  | error e => cases e <;> simp [starved, map, h, Except.map]

@[simp] theorem crashed_map {α β : Type} (f : α → β) (r : Report α) :
    (r.map f).crashed = r.crashed := by
  cases h : r.outcome <;> simp [crashed, map, h, Except.map]

theorem taken_append_drop {α : Type} (r : Report α) (supply : List Reading) :
    r.taken supply ++ supply.drop r.reads = supply := List.take_append_drop _ _

end Report

namespace Generator

variable {s : Settings} {p q : Progress} {phase phase' : Phase} {nowMs : Int64} {id : UInt64}
  {events : List Event} {outcome : Outcome (UInt64 × Progress)} {rest : List Reading}

/-! ## The loop, one reading at a time -/

theorem answer_of_finish (h : respond s p phase nowMs = (events, .finish outcome)) :
    answer s p phase (.time nowMs :: rest) = { outcome, events, reads := 1 } := by
  simp only [answer, h]

theorem answer_of_ask (h : respond s p phase nowMs = (events, .ask phase')) :
    answer s p phase (.time nowMs :: rest) =
      { outcome := (answer s p phase' rest).outcome
        events := events ++ (answer s p phase' rest).events
        reads := (answer s p phase' rest).reads + 1 } := by
  simp only [answer, h]

theorem taken_of_finish (h : respond s p phase nowMs = (events, .finish outcome)) :
    (answer s p phase (.time nowMs :: rest)).taken (.time nowMs :: rest) = [.time nowMs] := by
  simp [answer_of_finish h, Report.taken]

theorem taken_of_ask (h : respond s p phase nowMs = (events, .ask phase')) :
    (answer s p phase (.time nowMs :: rest)).taken (.time nowMs :: rest) =
      .time nowMs :: (answer s p phase' rest).taken rest := by
  simp [answer_of_ask h, Report.taken]

theorem reads_answer_le (s : Settings) (p : Progress) (phase : Phase) (supply : List Reading) :
    (answer s p phase supply).reads ≤ supply.length := by
  induction phase, supply using answer.induct s p with
  | case1 phase => simp [answer]
  | case2 phase f rest => simp [answer]
  | case3 phase nowMs rest events outcome hturn => simp [answer_of_finish hturn]
  | case4 phase nowMs rest events phase' hturn ih => simpa [answer_of_ask hturn] using ih

/-! ## Nothing beyond what was taken matters -/

theorem answer_taken_append (s : Settings) (p : Progress) (phase : Phase)
    (supply more : List Reading) (h : (answer s p phase supply).starved = false) :
    answer s p phase ((answer s p phase supply).taken supply ++ more) =
      answer s p phase supply := by
  induction phase, supply using answer.induct s p with
  | case1 phase => simp [answer, Report.starved] at h
  | case2 phase f rest => simp [answer, Report.starved] at h
  | case3 phase nowMs rest events outcome hturn =>
    rw [taken_of_finish hturn, List.cons_append, answer_of_finish hturn, answer_of_finish hturn]
  | case4 phase nowMs rest events phase' hturn ih =>
    -- The turn asks again, so the rest of the call is a call of its own from `phase'` on.
    have hlater : (answer s p phase' rest).starved = false := by
      rw [answer_of_ask hturn] at h
      exact h
    rw [taken_of_ask hturn, List.cons_append, answer_of_ask hturn, answer_of_ask hturn, ih hlater]

/-! ## A call that ended for want of readings -/

theorem stamp_ne_starved (s : Settings) (nowMs : Int64) (sequence : UInt16)
    (r : Report (UInt64 × Progress)) (h : r.outcome = stamp s nowMs sequence) :
    r.starved = false := by
  unfold stamp at h
  split at h
  · simp [Report.starved, h]
  · split at h <;> simp [Report.starved, h]

theorem starved_of_finish (h : respond s p phase nowMs = (events, .finish outcome)) :
    (answer s p phase (.time nowMs :: rest)).starved = false := by
  rw [answer_of_finish h]
  cases Responds.ofEq h with
  | outOfReach | movedBackwards | beforeEpoch | sequenceOverflow => rfl
  | past | sameMillisecond | laterMillisecond => exact stamp_ne_starved s nowMs _ _ rfl

/-- The two ways in which a call ends for want of readings: it comes to the end of its supply, or
the clock fails. -/
theorem answer_of_starved (s : Settings) (p : Progress) (phase : Phase) (supply : List Reading)
    (h : (answer s p phase supply).starved = true) :
    supply.drop (answer s p phase supply).reads = [] ∨
      ∃ f, (answer s p phase supply).outcome = .error (.clockFailed f) := by
  induction phase, supply using answer.induct s p with
  | case1 phase => exact .inl rfl
  | case2 phase f rest => exact .inr ⟨f, rfl⟩
  | case3 phase nowMs rest events outcome hturn =>
    rw [starved_of_finish hturn] at h
    exact nomatch h
  | case4 phase nowMs rest events phase' hturn ih =>
    rw [answer_of_ask hturn] at h ⊢
    exact ih h

theorem fault_mem_of_answer {f : ClockFault} (s : Settings) (p : Progress) (phase : Phase)
    (supply : List Reading) (h : (answer s p phase supply).outcome = .error (.clockFailed f)) :
    .fault f ∈ supply := by
  induction phase, supply using answer.induct s p with
  | case1 phase => simp [answer] at h
  | case2 phase f' rest =>
    simp only [answer, Except.error.injEq, Failure.clockFailed.injEq] at h
    rw [h]
    exact List.mem_cons_self
  | case3 phase nowMs rest events outcome hturn =>
    have hstarved : (answer s p phase (.time nowMs :: rest)).starved = false :=
      starved_of_finish hturn
    simp [Report.starved, h] at hstarved
  | case4 phase nowMs rest events phase' hturn ih =>
    rw [answer_of_ask hturn] at h
    exact List.mem_cons_of_mem _ (ih h)

/-! ## The last reading -/

theorem lastMs_of_stamp {sequence : UInt16} (h : stamp s nowMs sequence = .ok (id, q)) :
    q.lastMs = nowMs := by
  unfold stamp at h
  split at h
  · exact nomatch h
  · split at h
    · exact nomatch h
    · simp only [Except.ok.injEq, Prod.mk.injEq] at h
      rw [← h.2]

theorem lastMs_of_finish (h : respond s p phase nowMs = (events, .finish (.ok (id, q)))) :
    q.lastMs = nowMs := by
  generalize hturn : Turn.finish (.ok (id, q)) = turn at h
  cases Responds.ofEq h with
  | outOfReach | movedBackwards | beforeEpoch | sequenceOverflow => simp at hturn
  | waits | stillBehind | notPast | exhausted => simp at hturn
  | past | sameMillisecond | laterMillisecond =>
    rw [Turn.finish.injEq] at hturn
    exact lastMs_of_stamp hturn.symm

theorem getLast?_taken_answer (s : Settings) (p : Progress) (phase : Phase)
    (supply : List Reading) (h : (answer s p phase supply).outcome = .ok (id, q)) :
    ((answer s p phase supply).taken supply).getLast? = some (.time q.lastMs) := by
  induction phase, supply using answer.induct s p with
  | case1 phase => exact nomatch h
  | case2 phase f rest => exact nomatch h
  | case3 phase nowMs rest events outcome hturn =>
    rw [answer_of_finish hturn] at h
    obtain rfl : outcome = .ok (id, q) := h
    rw [taken_of_finish hturn, lastMs_of_finish hturn]
    rfl
  | case4 phase nowMs rest events phase' hturn ih =>
    rw [answer_of_ask hturn] at h
    rw [taken_of_ask hturn, List.getLast?_cons, ih h]
    rfl

/-! ## Calls -/

/-- A poisoned generator says so at once. -/
theorem call_of_poisoned {g : Generator} (h : g.poisoned = true) (supply : List Reading) :
    g.call supply = ({ outcome := .error (.refused .poisoned) }, g) := by
  simp [call, h]

theorem call_of_live {g : Generator} (hlive : g.poisoned = false) (supply : List Reading) :
    g.call supply =
      ((answer g.settings g.progress .entry supply).map Prod.fst,
        g.settle (answer g.settings g.progress .entry supply).outcome) := by
  simp [call, hlive]

/-- Only a clock that fails makes a call say so. -/
theorem fault_mem_of_clockFailed {g : Generator} {supply : List Reading} {f : ClockFault}
    (h : (g.call supply).1.outcome = .error (.clockFailed f)) : .fault f ∈ supply := by
  unfold call at h
  split at h
  · simp at h
  · apply fault_mem_of_answer g.settings g.progress .entry
    cases hr : (answer g.settings g.progress .entry supply).outcome with
    | ok answered => simp [Report.map, hr, Except.map] at h
    | error f' => simpa [Report.map, hr, Except.map] using h

/-- A call that ends without an id, and is not broken off, has not moved its generator. -/
theorem eq_of_error {g : Generator} {supply : List Reading} {f : Failure}
    (h : (g.call supply).1.outcome = .error f) (hf : f.isCrash = false) :
    (g.call supply).2 = g := by
  unfold call at h ⊢
  split
  · rfl
  · rename_i hpoisoned
    simp only [hpoisoned, Bool.false_eq_true, if_false] at h
    cases hr : (answer g.settings g.progress .entry supply).outcome with
    | ok answered => simp [Report.map, hr, Except.map] at h
    | error f' =>
      obtain rfl : f' = f := by simpa [Report.map, hr, Except.map] using h
      simp [hr, settle, hf]

/-- A generator is poisoned by a crash and by nothing else, and stays so. -/
theorem poisoned_call (g : Generator) (supply : List Reading) :
    (g.call supply).2.poisoned = (g.poisoned || (g.call supply).1.crashed) := by
  cases hpoisoned : g.poisoned with
  | true => simp [call_of_poisoned hpoisoned, hpoisoned]
  | false =>
    simp only [call, hpoisoned, Bool.false_eq_true, if_false, Bool.false_or, Report.crashed_map]
    cases hr : (answer g.settings g.progress .entry supply).outcome with
    | ok answered => simp [settle, Report.crashed, hr, hpoisoned]
    | error f => cases hcrash : f.isCrash <;> simp [settle, Report.crashed, hr, hcrash, hpoisoned]

theorem reads_call_le (g : Generator) (supply : List Reading) :
    (g.call supply).1.reads ≤ supply.length := by
  unfold call
  split
  · exact Nat.zero_le _
  · exact reads_answer_le _ _ _ _

/-- **A call sees no further than the readings that it takes.** -/
theorem call_taken_append (g : Generator) (supply more : List Reading)
    (h : (g.call supply).1.starved = false) :
    g.call ((g.call supply).1.taken supply ++ more) = g.call supply := by
  unfold call at h ⊢
  split
  · rfl
  · rename_i hpoisoned
    simp only [hpoisoned, Bool.false_eq_true, if_false, Report.starved_map] at h
    simp only [Report.taken_map, answer_taken_append _ _ _ _ more h]

/-- A call that ended for want of readings has used them all up, or the generator answers no more. -/
theorem later_of_starved (g : Generator) (supply : List Reading)
    (h : (g.call supply).1.starved = true) :
    supply.drop (g.call supply).1.reads = [] ∨ (g.call supply).2.poisoned = true := by
  unfold call at h ⊢
  split
  · rename_i hpoisoned
    exact .inr hpoisoned
  · rename_i hpoisoned
    simp only [hpoisoned, Bool.false_eq_true, if_false, Report.starved_map] at h
    rcases answer_of_starved _ _ _ _ h with hnone | ⟨f, hfailed⟩
    · exact .inl hnone
    · exact .inr (by simp [hfailed, settle, Failure.isCrash])

/-- **The last reading that a call took is the millisecond that its id is for.** -/
theorem getLast?_taken (g : Generator) (supply : List Reading)
    (h : (g.call supply).1.outcome = .ok id) :
    ((g.call supply).1.taken supply).getLast? = some (.time (g.call supply).2.progress.lastMs) := by
  unfold call at h ⊢
  split
  · rename_i hpoisoned
    simp [hpoisoned] at h
  · rename_i hpoisoned
    simp only [hpoisoned, Bool.false_eq_true, if_false] at h
    cases hr : (answer g.settings g.progress .entry supply).outcome with
    | error f => simp [Report.map, hr, Except.map] at h
    | ok answered =>
      obtain ⟨id', q⟩ := answered
      simpa [hr, settle] using getLast?_taken_answer _ _ _ _ hr

end Generator
end IdMint

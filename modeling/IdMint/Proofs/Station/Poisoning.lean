import IdMint.Proofs.Generator.Ending
import IdMint.Proofs.Station.Basic

/-!
# Crashes

A call that crashes had its generator in hand, and leaves it poisoned. It does not matter where the
call was: reading the clock for the first time, waiting for it to catch up, waiting for the next
millisecond, or computing a distance.

Two things are true of a run in which calls may crash. The generators that are poisoned are those on
which a call has crashed, no more and no fewer (`Tracked`); one move keeps this true, so a run does.
And a crash is no one else's concern. Two stations that agree but for one generator go on agreeing
while nobody calls it (`Agree.step`), and calls on a poisoned generator change nothing, so the
station after a crash can be followed beside one where the crash was a mere reading of the clock.
-/

namespace IdMint
namespace Station

open Fleet (Ref)
open Shop (Entry)

variable {s t : Station} {ref : Ref} {g : Generator} {log : List Entry}

/-! ## Which generators are poisoned -/

/-- A call on this generator has crashed. -/
def CrashedOn (log : List Entry) (ref : Ref) : Prop := SomeCall (·.crashed = true) log ref

/-- The poisoned generators are those on which a call has crashed. -/
def Tracked (log : List Entry) (s : Station) : Prop :=
  ∀ ref, CrashedOn log ref ↔ ∃ g, s.fleet.get? ref = some g ∧ g.poisoned = true

theorem Tracked.build (h : Tracked log s) (b : Blueprint) : Tracked log (s.build b).2 := by
  intro ref
  cases hr : (b.build (s.clocks b.clock)).outcome with
  | error f =>
    rw [build_of_error hr]
    exact h ref
  | ok g =>
    rw [build_of_ok hr, h ref]
    simp only [Fleet.get?_add]
    by_cases he : ref = (s.fleet.add g).1
    · -- Nobody held this ref before, and a new generator is not poisoned.
      have hnone : s.fleet.get? ref = none := by
        rw [he]
        exact Array.getElem?_eq_none (Nat.le_refl _)
      have hlive : g.poisoned = false := (Blueprint.build_ok hr).2.2
      simp [he ▸ hnone, he, hlive]
    · rw [if_neg he]

theorem Tracked.call (h : Tracked log s) (called : Ref) :
    Tracked (log ++ [{ ref := called, report := (s.call called).1 }]) (s.call called).2 := by
  intro ref
  rw [CrashedOn, someCall_append, ← CrashedOn, h ref, get?_call]
  by_cases he : ref = called
  · subst he
    rw [if_pos rfl]
    cases hg : s.fleet.get? ref with
    | none => simp [SomeCall, call_of_none hg, Report.crashed, Failure.isCrash]
    | some g => simp [SomeCall, call_of_get? hg, Generator.poisoned_call]
  · rw [if_neg he]
    simp [SomeCall, Ne.symm he]

theorem Tracked.step (h : Tracked log s) (m : Move) :
    Tracked (log ++ (s.step m).1) (s.step m).2 := by
  cases m with
  | build b =>
    rw [Station.step, List.append_nil]
    exact h.build b
  | call called => exact h.call called
  | read clock count =>
    rw [Station.step, List.append_nil]
    exact h

/-- Whatever has been built, called and read, from a station with no generators on. -/
theorem tracked_run (clocks : ClockName → List Reading) (moves : List Move) :
    Tracked (Station.run { clocks } moves).1 (Station.run { clocks } moves).2 := by
  have hempty : Tracked [] { clocks } := by
    intro ref
    simp [CrashedOn, SomeCall, Fleet.get?]
  exact run_induction (P := Tracked) (fun _ _ m h => h.step m) hempty moves

/-! ## Stations that agree but for one generator -/

structure Agree (ref : Ref) (s t : Station) : Prop where
  clocks : s.clocks = t.clocks
  size : s.fleet.members.size = t.fleet.members.size
  others : ∀ other, other ≠ ref → s.fleet.get? other = t.fleet.get? other

theorem Agree.pass (h : Agree ref s t) (clock : ClockName) (count : Nat) :
    Agree ref (s.pass clock count) (t.pass clock count) := by
  refine ⟨?_, h.size, h.others⟩
  simp only [Station.pass, Shop.pass, h.clocks]

theorem Agree.build (h : Agree ref s t) (b : Blueprint) :
    Agree ref (s.build b).2 (t.build b).2 := by
  have hpass := h.pass b.clock (b.build (s.clocks b.clock)).spent
  cases hr : (b.build (s.clocks b.clock)).outcome with
  | error f =>
    rw [build_of_error hr, build_of_error (h.clocks ▸ hr), ← h.clocks]
    exact hpass
  | ok g =>
    rw [build_of_ok hr, build_of_ok (h.clocks ▸ hr), ← h.clocks]
    refine ⟨hpass.clocks, ?_, ?_⟩
    · simp only [Fleet.add, Array.size_push, h.size]
    · intro other hother
      have hsame : (s.fleet.add g).1 = (t.fleet.add g).1 := h.size
      rw [Fleet.get?_add, Fleet.get?_add, hsame, h.others other hother]

theorem Agree.call (h : Agree ref s t) {called : Ref} (hcalled : called ≠ ref) :
    (s.call called).1 = (t.call called).1 ∧ Agree ref (s.call called).2 (t.call called).2 := by
  have hsame := h.others called hcalled
  have hothers : ∀ other, other ≠ ref →
      (s.call called).2.fleet.get? other = (t.call called).2.fleet.get? other := by
    intro other hother
    rw [get?_call, get?_call, h.others other hother, hsame, h.clocks]
  have hsize : (s.call called).2.fleet.members.size = (t.call called).2.fleet.members.size := by
    rw [size_call, size_call, h.size]
  cases hg : s.fleet.get? called with
  | none =>
    have hs := call_of_none hg
    have ht := call_of_none (hsame ▸ hg)
    refine ⟨by rw [hs, ht], ?_, hsize, hothers⟩
    rw [hs, ht]
    exact h.clocks
  | some g =>
    have hs := call_of_get? hg
    have ht := call_of_get? (hsame ▸ hg)
    refine ⟨by rw [hs, ht, h.clocks], ?_, hsize, hothers⟩
    rw [hs, ht]
    simp only [Station.pass, Shop.pass, h.clocks]

/-- A move that is no call on the one generator. -/
theorem Agree.step (h : Agree ref s t) {m : Move} (hm : m ≠ .call ref) :
    (s.step m).1 = (t.step m).1 ∧ Agree ref (s.step m).2 (t.step m).2 := by
  cases m with
  | build b => exact ⟨rfl, h.build b⟩
  | call called =>
    have hcalled : called ≠ ref := by
      rintro rfl
      exact hm rfl
    obtain ⟨hreport, hafter⟩ := h.call hcalled
    exact ⟨by simp only [Station.step, hreport], hafter⟩
  | read clock count => exact ⟨rfl, h.pass clock count⟩

/-! ## Beside a poisoned generator -/

theorem get?_step_of_poisoned (hg : s.fleet.get? ref = some g) (hpoisoned : g.poisoned = true)
    (m : Move) : (s.step m).2.fleet.get? ref = some g := by
  by_cases hm : m = .call ref
  · subst hm
    rw [Station.step, call_of_poisoned hg hpoisoned]
    exact hg
  · exact get?_step_of_ne hm hg

/-- The calls of a run that were made on other generators. -/
def elsewhere (ref : Ref) (log : List Entry) : List Entry := log.filter (·.ref != ref)

theorem elsewhere_append (ref : Ref) (log log' : List Entry) :
    elsewhere ref (log ++ log') = elsewhere ref log ++ elsewhere ref log' := List.filter_append ..

/-- **Calls on a poisoned generator are as good as not made**: the other generators answer as in a
station that has anything in its place, and where nobody calls it. -/
theorem Agree.elsewhere_run (moves : List Move) (h : Agree ref s t)
    (hg : s.fleet.get? ref = some g) (hpoisoned : g.poisoned = true) :
    elsewhere ref (s.run moves).1 = elsewhere ref (t.run (moves.filter (· ≠ .call ref))).1 := by
  induction moves generalizing s t with
  | nil => rfl
  | cons m rest ih =>
    rw [run_cons, elsewhere_append]
    by_cases hm : m = .call ref
    · subst hm
      have hcall := call_of_poisoned hg hpoisoned
      rw [List.filter_cons_of_neg (by simp), Station.step, hcall, ih h hg]
      simp [elsewhere]
    · obtain ⟨hfirst, hafter⟩ := h.step hm
      rw [List.filter_cons_of_pos (by simpa using hm), run_cons, elsewhere_append, hfirst,
        ih hafter (get?_step_of_poisoned hg hpoisoned m)]

theorem Agree.ofCall (hg : s.fleet.get? ref = some g) :
    Agree ref (s.call ref).2 (s.pass g.clock (s.call ref).1.spent) := by
  refine ⟨?_, size_call s ref, ?_⟩
  · rw [call_of_get? hg]
    rfl
  · intro other hother
    rw [get?_call, if_neg hother]
    rfl

/-! ## Runs -/

/-- What becomes of the calls on a generator, and of all others, after a run with these calls. -/
structure PoisonedByCrash (log : List Entry) (s : Station) (ref : Ref) : Prop where
  iff_crashedOn : (s.call ref).1.outcome = .error (.refused .poisoned) ↔ CrashedOn log ref
  /-- With no reading taken, no event and nothing changed. -/
  atOnce : (s.call ref).1.outcome = .error (.refused .poisoned) →
    s.call ref = ({ outcome := .error (.refused .poisoned), events := [], reads := 0 }, s)
  /-- After a crash the others answer as if it had been a mere reading of the clock, by somebody
  who has nothing to do with the generator. -/
  confined : ∀ g, s.fleet.get? ref = some g → (s.call ref).1.crashed = true → ∀ moves,
    elsewhere ref ((s.call ref).2.run moves).1 =
      elsewhere ref ((s.pass g.clock (s.call ref).1.spent).run (moves.filter (· ≠ .call ref))).1

/-- **A generator is poisoned by a crash, by nothing else, for good, and alone.** -/
theorem poisoned_by_crash (clocks : ClockName → List Reading) (moves : List Move) (ref : Ref) :
    PoisonedByCrash (Station.run { clocks } moves).1 (Station.run { clocks } moves).2
      ref := by
  have htracked := tracked_run clocks moves ref
  generalize (Station.run { clocks } moves).1 = log at htracked ⊢
  generalize (Station.run { clocks } moves).2 = s at htracked ⊢
  have hpoisoned : (s.call ref).1.outcome = .error (.refused .poisoned) ↔
      ∃ g, s.fleet.get? ref = some g ∧ g.poisoned = true := by
    cases hg : s.fleet.get? ref with
    | none => simp [call_of_none hg]
    | some g => simp [call_of_get? hg, Generator.poisoned_iff]
  refine ⟨hpoisoned.trans htracked.symm, ?_, ?_⟩
  · intro hanswer
    obtain ⟨g, hg, hp⟩ := hpoisoned.mp hanswer
    exact call_of_poisoned hg hp
  · intro g hg hcrashed later
    have hafter : (s.call ref).2.fleet.get? ref = some (g.call (s.clocks g.clock)).2 :=
      Shop.get?_call_self (K := .lists) hg
    have hbroken : (g.call (s.clocks g.clock)).2.poisoned = true := by
      rw [call_of_get? hg] at hcrashed
      rw [Generator.poisoned_call, hcrashed, Bool.or_true]
    exact (Agree.ofCall hg).elsewhere_run later hafter hbroken

/-- The clock fails while a call waits for it to catch up. A second generator on the same clock goes
on with the reading that comes next, and the first one takes none any more. -/
example :
    let b : Blueprint := { policy := .wait 5 }
    let readings : List Reading :=
      [.time 0, .time 0, .time 1000, .time 998, .time 999, .fault .stuck, .time 1001, .time 1002]
    let s : Station := { clocks := fun _ => readings }
    let r := s.run [.build b, .build b, .call 0, .call 0, .call 1, .call 0]
    r.1.map (·.report.crashed) = [false, true, false, false] ∧
      (r.2.call 0).1.outcome = .error (.refused .poisoned) ∧
      r.2.clocks .system = [.time 1002] := by
  exact ⟨by rfl, by rfl, by rfl⟩

end Station
end IdMint

import IdMint.Proofs.Generator.Readings
import IdMint.Proofs.Shop

/-!
# Stations

A station is a shop whose clocks are written out: each is the readings that are ahead of it, and
whoever reads it takes the first of them.

Nothing is asked of the readings. A reading may be a failure of the clock, also in the middle of a
call, and it is used up like any other (`Report.spent`); what comes after it may be times again. So
a clock here is whatever a clock may be. Calls that overlap on one clock are in this too: each of
them gets some readings, in some order, and a clock that has them in the order of the calls gives
the same.

A generator is called by its ref, whoever holds it. A clone is one more holder, and there is nothing
in a move to tell the holders apart.
-/

namespace IdMint

/-- Clocks that are all the readings ahead of them. -/
def ClockKind.lists : ClockKind (List Reading) where
  supply _ ahead := ahead
  after _ ahead _ spent := ahead.drop spent

abbrev Station := Shop (List Reading)

namespace Station

open Fleet (Ref)
open Shop (Entry)

inductive Move where
  | build (b : Blueprint)
  | call (ref : Ref)
  /-- Somebody else takes so many readings of a clock. -/
  | read (clock : ClockName) (count : Nat)
  deriving DecidableEq

/-! ## Moves -/

/-- The station after so many readings of a clock. -/
def pass (s : Station) (clock : ClockName) (count : Nat) : Station :=
  Shop.pass .lists s clock count count

def build (s : Station) (b : Blueprint) : Report Generator × Station := Shop.build .lists s b

def call (s : Station) (ref : Ref) : Report UInt64 × Station := Shop.call .lists s ref

/-- The station after a move, and the call that the move was, if it was one. -/
def step (s : Station) : Move → List Entry × Station
  | .build b => ([], (s.build b).2)
  | .call ref => ([{ ref, report := (s.call ref).1 }], (s.call ref).2)
  | .read clock count => ([], s.pass clock count)

/-- The calls of a run, in their order, and the station after it. -/
def run (s : Station) : List Move → List Entry × Station
  | [] => ([], s)
  | m :: rest =>
    let (first, s) := s.step m
    let (later, s) := s.run rest
    (first ++ later, s)

theorem run_cons (s : Station) (m : Move) (rest : List Move) :
    s.run (m :: rest) =
      ((s.step m).1 ++ ((s.step m).2.run rest).1, ((s.step m).2.run rest).2) := rfl

/-- What a move preserves, beside the calls made so far, a run preserves. -/
theorem run_induction {P : List Entry → Station → Prop}
    (hstep : ∀ log s m, P log s → P (log ++ (s.step m).1) (s.step m).2) {log : List Entry}
    {s : Station} (h : P log s) (moves : List Move) :
    P (log ++ (s.run moves).1) (s.run moves).2 := by
  induction moves generalizing log s with
  | nil =>
    rw [run, List.append_nil]
    exact h
  | cons m rest ih =>
    rw [run_cons, ← List.append_assoc]
    exact ih (hstep log s m h)

/-- Some call on a generator was answered so. -/
def SomeCall (p : Report UInt64 → Prop) (log : List Entry) (ref : Ref) : Prop :=
  ∃ e ∈ log, e.ref = ref ∧ p e.report

theorem someCall_append {p : Report UInt64 → Prop} {log log' : List Entry} {ref : Ref} :
    SomeCall p (log ++ log') ref ↔ SomeCall p log ref ∨ SomeCall p log' ref := by
  simp only [SomeCall, List.mem_append, or_and_right, exists_or]

/-! ## What a move does -/

theorem clocks_pass_self (s : Station) (clock : ClockName) (count : Nat) :
    (s.pass clock count).clocks clock = (s.clocks clock).drop count := if_pos rfl

theorem exists_drop_pass (s : Station) (clock name : ClockName) (count : Nat) :
    ∃ k, (s.pass clock count).clocks name = (s.clocks name).drop k := by
  by_cases h : name = clock
  · exact ⟨count, if_pos h⟩
  · exact ⟨0, if_neg h⟩

theorem pass_zero (s : Station) (clock : ClockName) : s.pass clock 0 = s := by
  obtain ⟨clocks, fleet⟩ := s
  simp [pass, Shop.pass, ClockKind.lists]

theorem report_build (s : Station) (b : Blueprint) :
    (s.build b).1 = b.build (s.clocks b.clock) :=
  Shop.report_build s b

theorem build_of_error {s : Station} {b : Blueprint} {f : Failure}
    (h : (b.build (s.clocks b.clock)).outcome = .error f) :
    (s.build b).2 = s.pass b.clock (b.build (s.clocks b.clock)).spent :=
  Shop.build_of_error (K := .lists) h

theorem build_of_ok {s : Station} {b : Blueprint} {g : Generator}
    (h : (b.build (s.clocks b.clock)).outcome = .ok g) :
    (s.build b).2 =
      { s.pass b.clock (b.build (s.clocks b.clock)).spent with fleet := (s.fleet.add g).2 } :=
  Shop.build_of_ok (K := .lists) h

variable {s : Station} {ref : Ref} {g : Generator}

theorem call_of_none (h : s.fleet.get? ref = none) :
    s.call ref = ({ outcome := .error .unanswered }, s) :=
  Shop.call_of_none h

theorem call_of_get? (h : s.fleet.get? ref = some g) :
    s.call ref =
      ((g.call (s.clocks g.clock)).1,
        pass { s with fleet := s.fleet.update ref (g.call (s.clocks g.clock)).2 } g.clock
          (g.call (s.clocks g.clock)).1.spent) :=
  Shop.call_of_get? (K := .lists) h

theorem get?_call (s : Station) (ref other : Ref) :
    (s.call ref).2.fleet.get? other =
      if other = ref then
        (s.fleet.get? ref).map fun g => (g.call (s.clocks g.clock)).2
      else s.fleet.get? other :=
  Shop.get?_call s ref other

theorem size_call (s : Station) (ref : Ref) :
    (s.call ref).2.fleet.members.size = s.fleet.members.size :=
  Shop.size_call s ref

theorem call_of_poisoned (h : s.fleet.get? ref = some g) (hpoisoned : g.poisoned = true) :
    s.call ref = ({ outcome := .error (.refused .poisoned) }, s) := by
  rw [call_of_get? h, Generator.call_of_poisoned hpoisoned, Fleet.update_of_get? h]
  exact congrArg _ (pass_zero s g.clock)

/-- A clock is only ever read on. -/
theorem exists_drop_step (s : Station) (m : Move) (name : ClockName) :
    ∃ k, (s.step m).2.clocks name = (s.clocks name).drop k := by
  cases m with
  | build b =>
    have hpass := s.exists_drop_pass b.clock name (b.build (s.clocks b.clock)).spent
    cases hr : (b.build (s.clocks b.clock)).outcome with
    | error f =>
      rw [step, build_of_error hr]
      exact hpass
    | ok g =>
      rw [step, build_of_ok hr]
      exact hpass
  | call ref =>
    cases hg : s.fleet.get? ref with
    | none =>
      rw [step, call_of_none hg]
      exact ⟨0, rfl⟩
    | some g =>
      rw [step, call_of_get? hg]
      exact exists_drop_pass _ g.clock name _
  | read clock count => exact s.exists_drop_pass clock name count

/-- A generator is moved only by the calls that are made on it. -/
theorem get?_step_of_ne {m : Move} (hm : m ≠ .call ref) (hg : s.fleet.get? ref = some g) :
    (s.step m).2.fleet.get? ref = some g := by
  cases m with
  | build b =>
    cases hr : (b.build (s.clocks b.clock)).outcome with
    | error f =>
      rw [step, build_of_error hr]
      exact hg
    | ok built =>
      have hlt : ref < s.fleet.members.size := (Array.getElem?_eq_some_iff.mp hg).1
      have hne : ref ≠ (s.fleet.add built).1 := Nat.ne_of_lt hlt
      rw [step, build_of_ok hr]
      simp only [Fleet.get?_add, if_neg hne, hg]
  | call called =>
    have hne : ref ≠ called := by
      rintro rfl
      exact hm rfl
    rw [step, get?_call, if_neg hne]
    exact hg
  | read clock count => exact hg

theorem someCall_step_of_ne {p : Report UInt64 → Prop} {log : List Entry} {m : Move}
    (hm : m ≠ .call ref) : SomeCall p (log ++ (s.step m).1) ref ↔ SomeCall p log ref := by
  have hnone : ¬ SomeCall p (s.step m).1 ref := by
    cases m with
    | call called =>
      have hne : called ≠ ref := by
        rintro rfl
        exact hm rfl
      simp [step, SomeCall, hne]
    | build | read => simp [step, SomeCall]
  rw [someCall_append, or_iff_left hnone]

end Station
end IdMint

import IdMint.Proofs.Blueprint
import IdMint.Proofs.Fleet.Calls

/-!
# Generators on their clocks

In the history of a fleet each call brings its readings along. A shop says where they come from: it
has the clocks too, and whoever reads a clock finds it as the one before left it. Two generators may
read one clock, and then the calls on the one decide what is left for the other.

How clocks work is left open. A kind of clock says what one request may read, and what becomes of a
clock that has been read (`ClockKind`); all that is used is that this concerns no other clock.

A call moves the generator that it is made on, and no other (`Shop.get?_call`). So a generator that
shares its clock with no other answers as if the others were not called (`Shop.Alone.filter_run`).
-/

namespace IdMint

open Fleet (Ref)

/-- The readings that a request used up. The one that failed gave no time, but it is gone. -/
def Report.spent {α : Type} (r : Report α) : Nat :=
  match r.outcome with
  | .error (.clockFailed _) => r.reads + 1
  | _ => r.reads

/-- How clocks of some kind are read: the readings that a request may take, and the clock after a
request that took so many and used up so many. -/
structure ClockKind (σ : Type) where
  supply : ClockName → σ → List Reading
  after : ClockName → σ → Nat → Nat → σ

structure Shop (σ : Type) where
  clocks : ClockName → σ
  fleet : Fleet := {}

namespace Shop

/-- A call that was made, and what it was answered. -/
structure Entry where
  ref : Ref
  report : Report UInt64

variable {σ : Type} (K : ClockKind σ)

/-- The shop after a request that took so many readings of a clock, and used up so many. -/
def pass (s : Shop σ) (clock : ClockName) (reads spent : Nat) : Shop σ :=
  { s with
    clocks := fun name =>
      if name = clock then K.after name (s.clocks name) reads spent else s.clocks name }

/-- Build a generator, which joins the others. -/
def build (s : Shop σ) (b : Blueprint) : Report Generator × Shop σ :=
  let report := b.build (K.supply b.clock (s.clocks b.clock))
  let s := s.pass K b.clock report.reads report.spent
  match report.outcome with
  | .error _ => (report, s)
  | .ok g => (report, { s with fleet := (s.fleet.add g).2 })

def call (s : Shop σ) (ref : Ref) : Report UInt64 × Shop σ :=
  match s.fleet.get? ref with
  | none => ({ outcome := .error .unanswered }, s)
  | some g =>
    let (report, fleet) := s.fleet.call ref (K.supply g.clock (s.clocks g.clock))
    (report, { s with fleet }.pass K g.clock report.reads report.spent)

/-- The calls on some generators, one after the other. -/
def run (s : Shop σ) : List Ref → List Entry × Shop σ
  | [] => ([], s)
  | ref :: rest =>
    let (report, s) := s.call K ref
    let (later, s) := s.run rest
    ({ ref, report } :: later, s)

variable {K} {s t : Shop σ} {b : Blueprint} {ref : Ref} {g : Generator}

/-! ## One request -/

theorem report_build (s : Shop σ) (b : Blueprint) :
    (s.build K b).1 = b.build (K.supply b.clock (s.clocks b.clock)) := by
  cases h : (b.build (K.supply b.clock (s.clocks b.clock))).outcome <;> simp only [build, h]

theorem build_of_error {f : Failure}
    (h : (b.build (K.supply b.clock (s.clocks b.clock))).outcome = .error f) :
    (s.build K b).2 =
      s.pass K b.clock (b.build (K.supply b.clock (s.clocks b.clock))).reads
        (b.build (K.supply b.clock (s.clocks b.clock))).spent := by
  simp only [build, h]

theorem build_of_ok (h : (b.build (K.supply b.clock (s.clocks b.clock))).outcome = .ok g) :
    (s.build K b).2 =
      { s.pass K b.clock (b.build (K.supply b.clock (s.clocks b.clock))).reads
          (b.build (K.supply b.clock (s.clocks b.clock))).spent with
        fleet := (s.fleet.add g).2 } := by
  simp only [build, h]
  rfl

theorem call_of_none (h : s.fleet.get? ref = none) :
    s.call K ref = ({ outcome := .error .unanswered }, s) := by
  simp only [call, h]

theorem call_of_get? (h : s.fleet.get? ref = some g) :
    s.call K ref =
      ((g.call (K.supply g.clock (s.clocks g.clock))).1,
        pass K
          { s with fleet := s.fleet.update ref (g.call (K.supply g.clock (s.clocks g.clock))).2 }
          g.clock (g.call (K.supply g.clock (s.clocks g.clock))).1.reads
          (g.call (K.supply g.clock (s.clocks g.clock))).1.spent) := by
  simp only [call, h, Fleet.call_of_get? h]

/-- A call moves the generator that it is made on, and no other. -/
theorem get?_call (s : Shop σ) (ref other : Ref) :
    (s.call K ref).2.fleet.get? other =
      if other = ref then
        (s.fleet.get? ref).map fun g => (g.call (K.supply g.clock (s.clocks g.clock))).2
      else s.fleet.get? other := by
  cases h : s.fleet.get? ref with
  | none =>
    rw [call_of_none h]
    split
    · rename_i he
      rw [he, h]
      rfl
    · rfl
  | some g =>
    rw [call_of_get? h]
    simp only [pass, Fleet.get?_update, h, Option.map_some]

theorem get?_call_self (h : s.fleet.get? ref = some g) :
    (s.call K ref).2.fleet.get? ref =
      some (g.call (K.supply g.clock (s.clocks g.clock))).2 := by
  rw [get?_call, if_pos rfl, h, Option.map_some]

theorem size_call (s : Shop σ) (ref : Ref) :
    (s.call K ref).2.fleet.members.size = s.fleet.members.size := by
  cases h : s.fleet.get? ref with
  | none => rw [call_of_none h]
  | some g =>
    rw [call_of_get? h]
    exact Array.size_setIfInBounds

/-! ## Calls one after the other -/

theorem run_cons (s : Shop σ) (ref : Ref) (rest : List Ref) :
    s.run K (ref :: rest) =
      ({ ref, report := (s.call K ref).1 } :: ((s.call K ref).2.run K rest).1,
        ((s.call K ref).2.run K rest).2) := rfl

theorem run_append (s : Shop σ) (refs later : List Ref) :
    s.run K (refs ++ later) =
      ((s.run K refs).1 ++ ((s.run K refs).2.run K later).1, ((s.run K refs).2.run K later).2) := by
  induction refs generalizing s with
  | nil => rfl
  | cons ref rest ih => rw [List.cons_append, run_cons, run_cons, ih, List.cons_append]

/-! ## A clock of one's own -/

/-- A generator, and that no other is on its clock. -/
structure Alone (s : Shop σ) (ref : Ref) (g : Generator) : Prop where
  held : s.fleet.get? ref = some g
  clock_ne : ∀ other g', other ≠ ref → s.fleet.get? other = some g' → g'.clock ≠ g.clock

/-- Two shops have the same generator at a ref, on the same clock. -/
structure Same (ref : Ref) (g : Generator) (s t : Shop σ) : Prop where
  left : s.fleet.get? ref = some g
  right : t.fleet.get? ref = some g
  clock : s.clocks g.clock = t.clocks g.clock

theorem Alone.call (h : s.Alone ref g) (called : Ref) :
    ∃ g', (s.call K called).2.Alone ref g' := by
  by_cases hcalled : called = ref
  · subst hcalled
    refine ⟨_, get?_call_self h.held, ?_⟩
    intro other g' hne hg'
    rw [get?_call, if_neg hne] at hg'
    rw [Generator.clock_call]
    exact h.clock_ne other g' hne hg'
  · refine ⟨g, ?_, ?_⟩
    · rw [get?_call, if_neg (Ne.symm hcalled)]
      exact h.held
    · intro other g' hne hg'
      by_cases hother : other = called
      · subst hother
        cases hheld : s.fleet.get? other with
        | none =>
          rw [call_of_none hheld, hheld] at hg'
          exact nomatch hg'
        | some before =>
          rw [get?_call_self hheld, Option.some.injEq] at hg'
          rw [← hg', Generator.clock_call]
          exact h.clock_ne other before hne hheld
      · rw [get?_call, if_neg hother] at hg'
        exact h.clock_ne other g' hne hg'

/-- A call on the generator itself is answered alike in both shops. -/
theorem Same.call_self (h : Same ref g s t) :
    (s.call K ref).1 = (t.call K ref).1 ∧
      Same ref (g.call (K.supply g.clock (s.clocks g.clock))).2 (s.call K ref).2
        (t.call K ref).2 := by
  have hs := call_of_get? (K := K) h.left
  have ht := call_of_get? (K := K) h.right
  rw [← h.clock] at ht
  refine ⟨by rw [hs, ht], get?_call_self h.left, ?_, ?_⟩
  · rw [get?_call_self h.right, h.clock]
  · rw [Generator.clock_call, hs, ht]
    simp only [pass, if_true, h.clock]

/-- A call on a generator with another clock does not touch it. -/
theorem Same.call_other (h : Same ref g s t) (halone : s.Alone ref g) {called : Ref}
    (hne : called ≠ ref) : Same ref g (s.call K called).2 t := by
  refine ⟨?_, h.right, ?_⟩
  · rw [get?_call, if_neg (Ne.symm hne)]
    exact h.left
  · rw [← h.clock]
    cases hheld : s.fleet.get? called with
    | none => rw [call_of_none hheld]
    | some g' =>
      have hclock : g.clock ≠ g'.clock := Ne.symm (halone.clock_ne called g' hne hheld)
      rw [call_of_get? hheld]
      simp only [pass, if_neg hclock]

theorem Same.filter_run (h : Same ref g s t) (halone : s.Alone ref g) (refs : List Ref) :
    (s.run K refs).1.filter (·.ref = ref) = (t.run K (refs.filter (· = ref))).1 := by
  induction refs generalizing s t g with
  | nil => rfl
  | cons called rest ih =>
    obtain ⟨g', halone'⟩ := halone.call (K := K) called
    rw [run_cons]
    by_cases hcalled : called = ref
    · subst hcalled
      obtain ⟨hreport, hsame⟩ := h.call_self (K := K)
      obtain rfl : (g.call (K.supply g.clock (s.clocks g.clock))).2 = g' :=
        Option.some.inj (hsame.left.symm.trans halone'.held)
      rw [List.filter_cons_of_pos (by simp), List.filter_cons_of_pos (by simp), run_cons,
        ih hsame halone', hreport]
    · have hsame := h.call_other (K := K) halone hcalled
      obtain rfl : g = g' := Option.some.inj (hsame.left.symm.trans halone'.held)
      rw [List.filter_cons_of_neg (by simp [hcalled]), List.filter_cons_of_neg (by simp [hcalled]),
        ih hsame halone']

/-- **A generator with a clock of its own answers as if no other were called.** -/
theorem Alone.filter_run (h : s.Alone ref g) (refs : List Ref) :
    (s.run K refs).1.filter (·.ref = ref) = (s.run K (refs.filter (· = ref))).1 :=
  Same.filter_run ⟨h.held, h.held, rfl⟩ h refs

end Shop
end IdMint

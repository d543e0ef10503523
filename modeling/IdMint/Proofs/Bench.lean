import IdMint.Directory
import IdMint.Proofs.Shop

/-!
# Handles

Callers do not hold generators but handles, and several handles may stand for one generator. A
clone is one more of them. On a bench there are handles beside the generators and clocks of a shop,
and a run of calls, clones and drops is answered by the generators that the handles stand for at the
time.

Three things are to be known of such a run.

* Which generators it calls is settled by the handles (`targets`), without a look at any generator
  or clock, and its answers are those of the calls on these generators (`run_eq`). So they do not
  depend on which handle of a generator is used, or on what has become of the others.
* A generator that shares its clock with no other answers as if the others were not called
  (`Shop.Alone.filter_run`).
* A generator that is new has issued nothing, whatever has been going on (`build_fresh`).
-/

namespace IdMint

open Fleet (Ref)
open Shop (Entry)

/-- Generators, and the handles that stand for them. -/
structure Bench (σ : Type) where
  shop : Shop σ
  handles : Directory Ref := {}

/-- What may be done with handles. -/
inductive Use where
  | next (handle : String)
  | clone (handle copy : String)
  | drop (handle : String)
  deriving DecidableEq

namespace Bench

variable {σ : Type} (K : ClockKind σ)

/-- The call that a use is, if it is one, and the bench after it. -/
def step (b : Bench σ) : Use → List Entry × Bench σ
  | .next handle =>
    match b.handles.get? handle with
    | none => ([], b)
    | some ref =>
      let (report, shop) := b.shop.call K ref
      ([{ ref, report }], { b with shop })
  | .clone handle copy =>
    match b.handles.get? handle with
    | none => ([], b)
    | some ref => ([], { b with handles := b.handles.set copy ref })
  | .drop handle => ([], { b with handles := b.handles.erase handle })

def run (b : Bench σ) : List Use → List Entry × Bench σ
  | [] => ([], b)
  | u :: rest =>
    let (first, b) := b.step K u
    let (later, b) := b.run rest
    (first ++ later, b)

/-- Build a generator and keep it under a handle. -/
def build (b : Bench σ) (handle : String) (blueprint : Blueprint) : Report Generator × Bench σ :=
  let (report, shop) := b.shop.build K blueprint
  match report.outcome with
  | .error _ => (report, { b with shop })
  | .ok g => (report, { shop, handles := b.handles.set handle (b.shop.fleet.add g).1 })

end Bench

/-! ## What the handles settle -/

namespace Use

/-- The generator that a use calls. -/
def target? (handles : Directory Ref) : Use → Option Ref
  | next handle => handles.get? handle
  | clone _ _ | drop _ => none

/-- The handles after a use. -/
def rearrange (handles : Directory Ref) : Use → Directory Ref
  | next _ => handles
  | clone handle copy => ((handles.get? handle).map (handles.set copy)).getD handles
  | drop handle => handles.erase handle

end Use

/-- The generators that some uses call, in their order. -/
def targets (handles : Directory Ref) : List Use → List Ref
  | [] => []
  | u :: rest => (u.target? handles).toList ++ targets (u.rearrange handles) rest

/-- The uses without the calls on other generators. -/
def callsOnly (ref : Ref) (handles : Directory Ref) : List Use → List Use
  | [] => []
  | u :: rest =>
    if (u.target? handles).all (· = ref) then u :: callsOnly ref (u.rearrange handles) rest
    else callsOnly ref (u.rearrange handles) rest

theorem Use.rearrange_of_target? {u : Use} {handles : Directory Ref} {ref : Ref}
    (h : u.target? handles = some ref) : u.rearrange handles = handles := by
  cases u with
  | next => rfl
  | clone | drop => exact nomatch h

theorem targets_callsOnly (ref : Ref) (handles : Directory Ref) (uses : List Use) :
    targets handles (callsOnly ref handles uses) = (targets handles uses).filter (· = ref) := by
  induction uses generalizing handles with
  | nil => rfl
  | cons u rest ih =>
    rw [callsOnly, targets, List.filter_append]
    cases htarget : u.target? handles with
    | none =>
      rw [Option.all_none, if_pos rfl, targets, htarget, ih]
      rfl
    | some called =>
      by_cases hcalled : called = ref
      · rw [Option.all_some, if_pos (by simp [hcalled]), targets, htarget, ih]
        simp [hcalled]
      · rw [Option.all_some, if_neg (by simp [hcalled]), Use.rearrange_of_target? htarget, ih]
        simp [hcalled]

namespace Bench

variable {σ : Type} {K : ClockKind σ}

theorem run_cons (b : Bench σ) (u : Use) (rest : List Use) :
    b.run K (u :: rest) =
      ((b.step K u).1 ++ ((b.step K u).2.run K rest).1, ((b.step K u).2.run K rest).2) := rfl

theorem run_append (b : Bench σ) (uses later : List Use) :
    b.run K (uses ++ later) =
      ((b.run K uses).1 ++ ((b.run K uses).2.run K later).1, ((b.run K uses).2.run K later).2) := by
  induction uses generalizing b with
  | nil => rfl
  | cons u rest ih => rw [List.cons_append, run_cons, run_cons, ih, List.append_assoc]

theorem step_eq (b : Bench σ) (u : Use) :
    b.step K u =
      ((b.shop.run K (u.target? b.handles).toList).1,
        { shop := (b.shop.run K (u.target? b.handles).toList).2
          handles := u.rearrange b.handles }) := by
  cases u with
  | next handle =>
    cases h : b.handles.get? handle with
    | none => simp only [step, h, Use.target?, Use.rearrange, Option.toList_none, Shop.run]
    | some ref => simp only [step, h, Use.target?, Use.rearrange, Option.toList_some, Shop.run]
  | clone handle copy =>
    cases h : b.handles.get? handle with
    | none => simp [step, h, Use.target?, Use.rearrange, Shop.run]
    | some ref => simp [step, h, Use.target?, Use.rearrange, Shop.run]
  | drop handle => rfl

/-- **A run is answered by the generators that its handles stand for**, as if these had been called
without any handles. -/
theorem run_eq (b : Bench σ) (uses : List Use) :
    (b.run K uses).1 = (b.shop.run K (targets b.handles uses)).1 ∧
      (b.run K uses).2.shop = (b.shop.run K (targets b.handles uses)).2 := by
  induction uses generalizing b with
  | nil => exact ⟨rfl, rfl⟩
  | cons u rest ih =>
    rw [run_cons, targets, Shop.run_append, step_eq]
    obtain ⟨hlog, hshop⟩ :=
      ih { shop := (b.shop.run K (u.target? b.handles).toList).2
           handles := u.rearrange b.handles }
    exact ⟨by rw [hlog], hshop⟩

/-- Two handles of one generator do the same. -/
theorem step_next_eq {b : Bench σ} {handle other : String}
    (h : b.handles.get? other = b.handles.get? handle) :
    b.step K (.next other) = b.step K (.next handle) := by
  simp only [step, h]

/-! ## New generators -/

/-- A generator that has issued nothing, under a ref that was nobody's. -/
structure Fresh (b : Bench σ) (handle : String) (g : Generator) (b' : Bench σ) : Prop where
  progress : g.progress = {}
  live : g.poisoned = false
  kept : ∃ ref, b.shop.fleet.get? ref = none ∧ b'.handles.get? handle = some ref ∧
    b'.shop.fleet.get? ref = some g
  others : ∀ ref g', b.shop.fleet.get? ref = some g' → b'.shop.fleet.get? ref = some g'

theorem report_build (b : Bench σ) (handle : String) (blueprint : Blueprint) :
    (b.build K handle blueprint).1 = (b.shop.build K blueprint).1 := by
  cases h : (b.shop.build K blueprint).1.outcome <;> simp only [build, h]

theorem build_fresh {b : Bench σ} {handle : String} {blueprint : Blueprint} {g : Generator}
    (h : (b.build K handle blueprint).1.outcome = .ok g) :
    b.Fresh handle g (b.build K handle blueprint).2 := by
  rw [report_build] at h
  have hbuilt : (blueprint.build
      (K.supply blueprint.clock (b.shop.clocks blueprint.clock))).outcome = .ok g := by
    rw [← Shop.report_build]
    exact h
  obtain ⟨-, hprogress, hlive⟩ := Blueprint.build_ok hbuilt
  have hfleet : (b.shop.build K blueprint).2.fleet = (b.shop.fleet.add g).2 := by
    rw [Shop.build_of_ok hbuilt]
  have hnone : b.shop.fleet.get? (b.shop.fleet.add g).1 = none :=
    Array.getElem?_eq_none (Nat.le_refl _)
  simp only [build, h]
  refine ⟨hprogress, hlive, ⟨(b.shop.fleet.add g).1, hnone, ?_, ?_⟩, ?_⟩
  · exact (Directory.get?_set _ _ _ _).trans (if_pos rfl)
  · rw [hfleet, Fleet.get?_add, if_pos rfl]
  · intro ref g' hg'
    have hne : ref ≠ (b.shop.fleet.add g).1 := by
      rintro rfl
      rw [hnone] at hg'
      exact nomatch hg'
    rw [hfleet, Fleet.get?_add, if_neg hne, hg']

/-! ## Isolation -/

/-- What is to be known of a run over handles. -/
structure Isolated (K : ClockKind σ) (b : Bench σ) (uses : List Use) : Prop where
  /-- The answers go by the generators that are called, whatever the handles. -/
  byGenerator : ∀ handles' uses', targets handles' uses' = targets b.handles uses →
    ({ b with handles := handles' }.run K uses').1 = (b.run K uses).1
  /-- Any call may go by another handle of the same generator. -/
  rerouted : ∀ before handle other after, uses = before ++ .next handle :: after →
    (b.run K before).2.handles.get? other = (b.run K before).2.handles.get? handle →
      b.run K (before ++ .next other :: after) = b.run K uses
  /-- A generator with a clock of its own answers as in the run without the other calls. -/
  alone : ∀ ref g, b.shop.Alone ref g →
    (b.run K uses).1.filter (·.ref = ref) = (b.run K (callsOnly ref b.handles uses)).1
  /-- A generator that is built after all this has issued nothing. -/
  fresh : ∀ handle blueprint g, ((b.run K uses).2.build K handle blueprint).1.outcome = .ok g →
    (b.run K uses).2.Fresh handle g ((b.run K uses).2.build K handle blueprint).2

theorem isolated (K : ClockKind σ) (b : Bench σ) (uses : List Use) : b.Isolated K uses := by
  refine ⟨?_, ?_, ?_, ?_⟩
  · intro handles' uses' htargets
    rw [(run_eq _ uses').1, (run_eq b uses).1, htargets]
  · rintro before handle other after rfl hhandles
    rw [run_append, run_append, run_cons, run_cons, step_next_eq hhandles]
  · intro ref g halone
    rw [(run_eq b uses).1, (run_eq b _).1, targets_callsOnly]
    exact halone.filter_run _
  · intro handle blueprint g hbuilt
    exact build_fresh hbuilt

end Bench
end IdMint

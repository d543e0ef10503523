import IdMint.Proofs.Generator.Backward
import IdMint.Proofs.Generator.Ending
import IdMint.Proofs.Generator.Series

/-!
# More and less patient generators

Two generators that differ in nothing but their policy go the same way until the one with less
patience refuses what the other waits for. The reason is that a policy is hardly ever asked. A call
asks it about its first reading, if that is behind, and then only whether the distance is tolerated;
what comes after the first turn is the same under every policy (`call_under`).

A distance is at least one millisecond. So a generator that waits for no milliseconds, or for fewer
than none, never waits, and cannot be told from one that fails.
-/

namespace IdMint

/-- The second policy waits for whatever the first one waits for. To fail is to wait for nothing. -/
def Policy.NoMorePatient : Policy → Policy → Prop
  | .fail, _ => True
  | .wait m₁, .wait m₂ => m₁ ≤ m₂
  | .wait _, .fail => False

theorem Policy.NoMorePatient.tolerates {p q : Policy} (h : p.NoMorePatient q) {driftMs : Int64}
    (tolerated : p.tolerates driftMs = true) : q.tolerates driftMs = true := by
  cases p with
  | fail => exact nomatch tolerated
  | wait m₁ =>
    cases q with
    | fail => exact h.elim
    | wait m₂ =>
      have hle : m₁ ≤ m₂ := h
      simp only [Policy.tolerates, decide_eq_true_eq, Int64.le_iff_toInt_le] at tolerated hle ⊢
      omega

theorem Policy.tolerates_of_nonpos {m driftMs : Int64} (hm : m ≤ 0) (ahead : 0 < driftMs.toInt) :
    (Policy.wait m).tolerates driftMs = false := by
  rw [Int64.le_iff_toInt_le, Int64.toInt_zero] at hm
  simp only [Policy.tolerates, decide_eq_false_iff_not, Int64.le_iff_toInt_le]
  omega

/-- A call was refused over a clock that went back. -/
def Report.movedBackwards (r : Report UInt64) : Bool :=
  match r.outcome with
  | .error (.refused (.clockMovedBackwards _ _)) => true
  | _ => false

namespace Generator

/-- The same generator under another policy. -/
def under (g : Generator) (policy : Policy) : Generator :=
  { g with settings := { g.settings with policy } }

variable {g : Generator} {policy other : Policy} {s : Settings} {p : Progress} {phase : Phase}

@[simp] theorem under_under : (g.under policy).under other = g.under other := rfl

theorem under_of_policy (h : g.settings.policy = policy) : g.under policy = g := by
  rw [← h, under]

/-! ## One call -/

theorem respond_policy (policy : Policy) (hphase : phase ≠ .entry) (nowMs : Int64) :
    respond { s with policy } p phase nowMs = respond s p phase nowMs := by
  cases phase with
  | entry => exact absurd rfl hphase
  | catchUp | nextMillisecond => rfl

/-- A call that waits does not ask the policy any more. -/
theorem answer_policy (policy : Policy) (supply : List Reading) (hphase : phase ≠ .entry) :
    answer { s with policy } p phase supply = answer s p phase supply := by
  -- A call never comes back to its entry, so the hypothesis is there again for each later phase.
  induction phase, supply using answer.induct s p with
  | case1 phase => rfl
  | case2 phase f rest => rfl
  | case3 phase nowMs rest events outcome hturn =>
    have hsame := respond_policy (s := s) (p := p) policy hphase nowMs
    rw [answer_of_finish hturn, answer_of_finish (hsame.trans hturn)]
  | case4 phase nowMs rest events phase' hturn ih =>
    have hsame := respond_policy (s := s) (p := p) policy hphase nowMs
    rw [answer_of_ask hturn, answer_of_ask (hsame.trans hturn), ih (waiting_of_ask hturn)]

/-- Two policies tolerate the first reading alike: it is not behind, or its distance is no word, or
they have the same to say about its distance. -/
def TolerateAlike (p : Progress) (policy other : Policy) (supply : List Reading) : Prop :=
  ∀ nowMs driftMs : Int64, supply.head? = some (.time nowMs) →
    nowMs.toInt < p.lastMs.toInt → driftMs.toInt = p.lastMs.toInt - nowMs.toInt →
      other.tolerates driftMs = policy.tolerates driftMs

theorem respond_entry_policy {nowMs : Int64} {rest : List Reading}
    (alike : TolerateAlike p policy other (.time nowMs :: rest)) :
    respond { s with policy := other } p .entry nowMs = respond { s with policy } p .entry nowMs := by
  by_cases hbehind : nowMs.toInt < p.lastMs.toInt
  · rw [respond_entry_of_behind hbehind, respond_entry_of_behind hbehind, regress, regress]
    cases hdrift : Checked.sub p.lastMs nowMs with
    | error o => rfl
    | ok driftMs =>
      simp only [alike nowMs driftMs rfl hbehind (Checked.sub_eq_ok_iff.mp hdrift)]
  · have hreached := Int.not_lt.mp hbehind
    rw [respond_of_reached Phase.accepts_entry hreached,
      respond_of_reached Phase.accepts_entry hreached]
    rfl

theorem answer_entry_policy {supply : List Reading}
    (alike : TolerateAlike p policy other supply) :
    answer { s with policy := other } p .entry supply =
      answer { s with policy } p .entry supply := by
  cases supply with
  | nil => rfl
  | cons reading rest =>
    cases reading with
    | fault f => rfl
    | time nowMs =>
      have hsame := respond_entry_policy (s := s) alike
      cases hturn : respond { s with policy } p .entry nowMs with
      | mk events turn =>
        cases turn with
        | finish outcome => rw [answer_of_finish hturn, answer_of_finish (hsame.trans hturn)]
        | ask phase' =>
          have hlater (policy : Policy) := answer_policy (s := s) (p := p) policy rest
            (waiting_of_ask hturn)
          rw [answer_of_ask hturn, answer_of_ask (hsame.trans hturn), hlater other, hlater policy]

theorem settle_under (outcome : Outcome (UInt64 × Progress)) :
    (g.under other).settle outcome = ((g.under policy).settle outcome).under other := by
  cases outcome with
  | ok answered => rfl
  | error f => cases hcrash : f.isCrash <;> simp [settle, hcrash, under]

theorem call_under_of_poisoned (hpoisoned : g.poisoned = true) (policy : Policy)
    (supply : List Reading) :
    (g.under policy).call supply =
      ({ outcome := .error (.refused .poisoned) }, g.under policy) :=
  call_of_poisoned (g := g.under policy) hpoisoned supply

/-- **A call asks the policy about its first reading and about no other.** -/
theorem call_under {supply : List Reading}
    (alike : TolerateAlike g.progress policy other supply) :
    (g.under other).call supply =
      (((g.under policy).call supply).1, ((g.under policy).call supply).2.under other) := by
  cases hpoisoned : g.poisoned with
  | true =>
    rw [call_under_of_poisoned hpoisoned, call_under_of_poisoned hpoisoned, under_under]
  | false =>
    have h (policy : Policy) : (g.under policy).call supply =
        ((answer { g.settings with policy } g.progress .entry supply).map Prod.fst,
          (g.under policy).settle
            (answer { g.settings with policy } g.progress .entry supply).outcome) :=
      call_of_live (g := g.under policy) hpoisoned supply
    rw [h, h, answer_entry_policy alike, settle_under]

/-- A call that was not refused tolerates what it read, and so does one with more patience. -/
theorem tolerateAlike_of_noMorePatient {supply : List Reading} (h : policy.NoMorePatient other)
    (hlive : g.poisoned = false) (hcall : ((g.under policy).call supply).1.movedBackwards = false) :
    TolerateAlike g.progress policy other supply := by
  intro nowMs driftMs hfirst hbehind hdrift
  obtain ⟨rest, rfl⟩ := List.head?_eq_some_iff.mp hfirst
  cases htolerates : policy.tolerates driftMs with
  | true => exact h.tolerates htolerates
  | false =>
    have hrefused := call_of_refused (g := g.under policy) hlive hbehind
      (Checked.sub_eq_ok_iff.mpr hdrift) htolerates rest
    rw [hrefused] at hcall
    exact nomatch hcall

theorem tolerateAlike_of_nonpos {m : Int64} (hm : m ≤ 0) (p : Progress) (supply : List Reading) :
    TolerateAlike p .fail (.wait m) supply := by
  intro nowMs driftMs _ hbehind hdrift
  exact Policy.tolerates_of_nonpos hm (by omega)

/-! ## Runs -/

/-- Under the two policies, so many calls on a stream go the same way: with the same reports, and to
the same generator but for its policy. -/
def SameCourse (g : Generator) (policy other : Policy) (stream : List Reading) (n : Nat) : Prop :=
  (g.under other).series stream n =
    (((g.under policy).series stream n).1, ((g.under policy).series stream n).2.under other)

/-- What calls have in common, so long as they have a property, runs have in common so long as all
their calls have it. -/
theorem sameCourse_of_calls {P : Report UInt64 → Prop}
    (hcall : ∀ g supply, P ((under g policy).call supply).1 →
      (under g other).call supply =
        (((under g policy).call supply).1, ((under g policy).call supply).2.under other))
    (g : Generator) (stream : List Reading) (n : Nat)
    (hall : ∀ r ∈ ((g.under policy).series stream n).1, P r) : g.SameCourse policy other stream n := by
  induction n generalizing g stream with
  | zero => rfl
  | succ n ih =>
    rw [series_succ] at hall
    obtain ⟨hfirst, hrest⟩ := List.forall_mem_cons.mp hall
    -- What the first call leaves has the first policy already, so that the rest of both runs starts
    -- from one generator under the two policies.
    have hsame : ((g.under policy).call stream).2.under policy = ((g.under policy).call stream).2 :=
      under_of_policy (by rw [settings_call]; rfl)
    rw [← hsame] at hrest
    have hlater := ih _ _ hrest
    rw [SameCourse, hsame] at hlater
    rw [SameCourse, series_succ, series_succ, hcall g stream hfirst, hlater]

/-- **Patience makes no difference until it runs out.** A generator that waits for nothing goes the
way of one that fails, in every run. And of two generators the more patient one goes the way of the
other for as long as that one is not refused over a clock that went back, also if a call crashes. -/
theorem patience_monotone (g : Generator) (stream : List Reading) (n : Nat) :
    (∀ m : Int64, m ≤ 0 → g.SameCourse .fail (.wait m) stream n) ∧
    ∀ policy other : Policy, policy.NoMorePatient other →
      (∀ r ∈ ((g.under policy).series stream n).1, r.movedBackwards = false) →
        g.SameCourse policy other stream n := by
  constructor
  · intro m hm
    refine sameCourse_of_calls (P := fun _ => True) ?_ g stream n fun _ _ => trivial
    intro g supply _
    exact call_under (tolerateAlike_of_nonpos hm g.progress supply)
  · intro policy other hpatient hall
    refine sameCourse_of_calls ?_ g stream n hall
    intro g supply hcall
    cases hpoisoned : g.poisoned with
    | true =>
      rw [call_under_of_poisoned hpoisoned, call_under_of_poisoned hpoisoned, under_under]
    | false => exact call_under (tolerateAlike_of_noMorePatient hpatient hpoisoned hcall)

/-- A clock that goes back by three milliseconds and then by seven. Waiting for five and waiting for
six are the same at the first step, and both are refused at the second; waiting for fewer than none
is refused at both. -/
theorem patience_monotone_over_two_setbacks :
    let g : Generator := { settings := {}, progress := { lastMs := 10000, sequence := 0 } }
    let stream : List Reading := [.time 9997, .time 10000, .time 9993]
    (-1 : Int64) ≤ 0 ∧ g.SameCourse .fail (.wait (-1)) stream 2 ∧
      (Policy.wait 5).NoMorePatient (.wait 6) ∧
      (∀ r ∈ ((g.under (.wait 5)).series stream 1).1, r.movedBackwards = false) ∧
      g.SameCourse (.wait 5) (.wait 6) stream 1 ∧
      (((g.under (.wait 5)).series stream 2).1.map Report.movedBackwards) = [false, true] := by
  intro g stream
  have hpatient : (Policy.wait 5).NoMorePatient (.wait 6) := (by decide : (5 : Int64) ≤ 6)
  have hall : ∀ r ∈ ((g.under (.wait 5)).series stream 1).1, r.movedBackwards = false := by decide
  exact ⟨by decide, (patience_monotone g stream 2).1 (-1) (by decide), hpatient, hall,
    (patience_monotone g stream 1).2 (.wait 5) (.wait 6) hpatient hall, by decide⟩

end Generator
end IdMint

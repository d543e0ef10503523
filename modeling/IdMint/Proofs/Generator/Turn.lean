import IdMint.Generator.Call

/-!
# What a turn can do

`respond` branches over the phase, the reading, the policy and the sequence, and every fact about a
call begins with those branches. They are taken once, here: `Responds` has one rule for each thing
that a turn can do, with all that is known when it does it, and `responds` says that there is no
other. A proof about calls goes over the rules by name.

The rules that a call follows at its entry and after catching up are the same, except for a reading
that is behind. So they are given for both phases at once, as those in which a reading may be
accepted (`Phase.Accepts`).
-/

namespace IdMint
namespace Generator

/-- A phase in which a reading that is not behind decides the call. -/
def Phase.Accepts : Phase → Prop
  | .entry | .catchUp => True
  | .nextMillisecond => False

theorem Phase.accepts_entry : Phase.entry.Accepts := trivial

theorem Phase.accepts_catchUp : Phase.catchUp.Accepts := trivial

/-- Each thing that a turn can do. -/
inductive Responds (s : Settings) (p : Progress) (nowMs : Int64) :
    Phase → List Event → Turn → Prop
  /-- The clock is so far behind that the distance is no word. -/
  | outOfReach {o : Overflow} (behind : nowMs.toInt < p.lastMs.toInt)
      (drift : Checked.sub p.lastMs nowMs = .error o) :
      Responds s p nowMs .entry [] (.finish (.error (.overflowed o)))
  | movedBackwards {driftMs : Int64} (behind : nowMs.toInt < p.lastMs.toInt)
      (drift : Checked.sub p.lastMs nowMs = .ok driftMs)
      (refused : s.policy.tolerates driftMs = false) :
      Responds s p nowMs .entry [.movedBackwards p.lastMs nowMs driftMs]
        (.finish (.error (.refused (.clockMovedBackwards p.lastMs nowMs))))
  | waits {driftMs : Int64} (behind : nowMs.toInt < p.lastMs.toInt)
      (drift : Checked.sub p.lastMs nowMs = .ok driftMs)
      (tolerated : s.policy.tolerates driftMs = true) :
      Responds s p nowMs .entry [.waiting p.lastMs nowMs driftMs] (.ask .catchUp)
  | stillBehind (behind : nowMs.toInt < p.lastMs.toInt) :
      Responds s p nowMs .catchUp [] (.ask .catchUp)
  | notPast (notPast : nowMs.toInt ≤ p.lastMs.toInt) :
      Responds s p nowMs .nextMillisecond [] (.ask .nextMillisecond)
  | past (past : p.lastMs.toInt < nowMs.toInt) :
      Responds s p nowMs .nextMillisecond [] (.finish (stamp s nowMs 0))
  | beforeEpoch {phase : Phase} (accepts : phase.Accepts) (reached : p.lastMs.toInt ≤ nowMs.toInt)
      (early : nowMs.toInt < s.epochMs.toInt) :
      Responds s p nowMs phase [] (.finish (.error (.refused (.clockBeforeEpoch s.epochMs nowMs))))
  | sequenceOverflow {phase : Phase} {o : Overflow} (accepts : phase.Accepts)
      (same : nowMs = p.lastMs) (overflow : Checked.increment p.sequence = .error o) :
      Responds s p nowMs phase [] (.finish (.error (.overflowed o)))
  | exhausted {phase : Phase} {next : UInt16} (accepts : phase.Accepts) (same : nowMs = p.lastMs)
      (epoch : s.epochMs.toInt ≤ nowMs.toInt) (increment : Checked.increment p.sequence = .ok next)
      (around : next &&& Layout.maxSequence = 0) :
      Responds s p nowMs phase [.sequenceExhausted nowMs] (.ask .nextMillisecond)
  | sameMillisecond {phase : Phase} {next : UInt16} (accepts : phase.Accepts)
      (same : nowMs = p.lastMs) (epoch : s.epochMs.toInt ≤ nowMs.toInt)
      (increment : Checked.increment p.sequence = .ok next)
      (within : next &&& Layout.maxSequence ≠ 0) :
      Responds s p nowMs phase [] (.finish (stamp s nowMs (next &&& Layout.maxSequence)))
  | laterMillisecond {phase : Phase} (accepts : phase.Accepts)
      (later : p.lastMs.toInt < nowMs.toInt) (epoch : s.epochMs.toInt ≤ nowMs.toInt) :
      Responds s p nowMs phase [] (.finish (stamp s nowMs 0))

variable {s : Settings} {p : Progress} {nowMs : Int64} {phase : Phase}

theorem Responds.ofAccept (hphase : phase.Accepts) (hle : p.lastMs.toInt ≤ nowMs.toInt) :
    Responds s p nowMs phase (accept s p nowMs).1 (accept s p nowMs).2 := by
  unfold accept
  by_cases hearly : nowMs < s.epochMs
  · rw [if_pos hearly]
    exact .beforeEpoch hphase hle (Int64.lt_iff_toInt_lt.mp hearly)
  · have hepoch : s.epochMs.toInt ≤ nowMs.toInt := by
      rw [Int64.lt_iff_toInt_lt] at hearly
      omega
    rw [if_neg hearly]
    by_cases hsame : nowMs = p.lastMs
    · rw [if_pos hsame]
      cases hinc : Checked.increment p.sequence with
      | error o => exact .sequenceOverflow hphase hsame hinc
      | ok next =>
        by_cases haround : next &&& Layout.maxSequence = 0
        · simp only [haround, if_true]
          exact .exhausted hphase hsame hepoch hinc haround
        · simp only [haround, if_false]
          exact .sameMillisecond hphase hsame hepoch hinc haround
    · rw [if_neg hsame]
      have hlater : p.lastMs.toInt < nowMs.toInt := by
        rw [← Int64.toInt_inj] at hsame
        omega
      exact .laterMillisecond hphase hlater hepoch

theorem Responds.ofRegress (hlt : nowMs.toInt < p.lastMs.toInt) :
    Responds s p nowMs .entry (regress s p nowMs).1 (regress s p nowMs).2 := by
  unfold regress
  cases hdrift : Checked.sub p.lastMs nowMs with
  | error o => exact .outOfReach hlt hdrift
  | ok driftMs =>
    cases htol : s.policy.tolerates driftMs with
    | true =>
      simp only [htol, if_true]
      exact .waits hlt hdrift htol
    | false =>
      simp only [htol, Bool.false_eq_true, if_false]
      exact .movedBackwards hlt hdrift htol

/-- **A turn follows one of the rules.** -/
theorem responds (s : Settings) (p : Progress) (phase : Phase) (nowMs : Int64) :
    Responds s p nowMs phase (respond s p phase nowMs).1 (respond s p phase nowMs).2 := by
  cases phase with
  | entry =>
    simp only [respond]
    split
    · rename_i hlt
      exact .ofRegress (Int64.lt_iff_toInt_lt.mp hlt)
    · rename_i hge
      rw [Int64.lt_iff_toInt_lt] at hge
      exact .ofAccept trivial (by omega)
  | catchUp =>
    simp only [respond]
    split
    · rename_i hlt
      exact .stillBehind (Int64.lt_iff_toInt_lt.mp hlt)
    · rename_i hge
      rw [Int64.lt_iff_toInt_lt] at hge
      exact .ofAccept trivial (by omega)
  | nextMillisecond =>
    simp only [respond]
    split
    · rename_i hle
      exact .notPast (Int64.le_iff_toInt_le.mp hle)
    · rename_i hgt
      rw [Int64.le_iff_toInt_le] at hgt
      exact .past (by omega)

theorem Responds.ofEq {events : List Event} {turn : Turn}
    (h : respond s p phase nowMs = (events, turn)) : Responds s p nowMs phase events turn := by
  have hrule := responds s p phase nowMs
  rw [h] at hrule
  exact hrule

/-! ## Waiting -/

theorem respond_of_stillBehind (h : nowMs.toInt < p.lastMs.toInt) :
    respond s p .catchUp nowMs = ([], .ask .catchUp) := by
  rw [respond, if_pos (Int64.lt_iff_toInt_lt.mpr h)]

theorem respond_of_notPast (h : nowMs.toInt ≤ p.lastMs.toInt) :
    respond s p .nextMillisecond nowMs = ([], .ask .nextMillisecond) := by
  rw [respond, if_pos (Int64.le_iff_toInt_le.mpr h)]

theorem respond_of_past (h : p.lastMs.toInt < nowMs.toInt) :
    respond s p .nextMillisecond nowMs = ([], .finish (stamp s nowMs 0)) := by
  have hpast : ¬ nowMs ≤ p.lastMs := by
    rw [Int64.le_iff_toInt_le]
    omega
  rw [respond, if_neg hpast]

end Generator
end IdMint

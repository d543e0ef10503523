import Mathlib.Algebra.Group.Int.Defs
import Mathlib.Algebra.Group.Nat.Defs
import IdMint.Proofs.Generator.Readings

/-!
# A call with its working

A call computes on words: how far its clock is behind, the next sequence number, the time since the
epoch, and the word that the fields of an id make up. Its result does not show on what it was
computed. So the turn of a call is written a second time here, as a sum is written out with its
working: whatever is computed goes on record with its operands, in order.

A `Working` is a result with that record. It carries the one fact that makes a record worth reading,
that there is no result exactly if an operation on record overflows, and since every operation has
it and doing one thing after another keeps it, nobody has to prove it of a turn. What does have to be
proved is that it is the same turn (`Working.turn_respond`). Then the operations of a call are those
of its turns (`Generator.operations`), and a call is broken off by an overflow exactly if one of them
overflows (`Generator.overflowed_iff`).
-/

namespace IdMint

/-! ## Operations -/

/-- An operation on words, with its operands. -/
inductive Operation where
  /-- How far the clock is behind the last issued millisecond. -/
  | drift (lastMs nowMs : Int64)
  /-- The sequence number after this one. -/
  | increment (sequence : UInt16)
  /-- How far the clock is past the epoch. -/
  | elapse (nowMs epochMs : Int64)
  /-- A signed word taken for an unsigned one. -/
  | unsign (n : Int64)
  /-- A field moved up to its place. -/
  | shift (field : UInt64) (places : Nat)
  /-- Fields at their places put into one word. -/
  | join (fields : List UInt64)
  deriving DecidableEq, Repr

namespace Operation

/-- Checked arithmetic stops at the operation. No change of type and no bitwise or is checked, and of
a shift only how far it goes. -/
def Overflows : Operation → Prop
  | drift lastMs nowMs => ¬ Checked.Fits (lastMs.toInt - nowMs.toInt)
  | increment sequence => UInt16.size ≤ sequence.toNat + 1
  | elapse nowMs epochMs => ¬ Checked.Fits (nowMs.toInt - epochMs.toInt)
  | shift _ places => 64 ≤ places
  | unsign _ | join _ => False

/-- The operation has the result that is meant, as a number: nothing leaves its word, the epoch is
not later than the clock, no value changes with its type, a shift loses no bit, and no two fields
that are joined share one. -/
def Exact : Operation → Prop
  | drift lastMs nowMs => Checked.Fits (lastMs.toInt - nowMs.toInt)
  | increment sequence => sequence.toNat + 1 < UInt16.size
  | elapse nowMs epochMs =>
    0 ≤ nowMs.toInt - epochMs.toInt ∧ Checked.Fits (nowMs.toInt - epochMs.toInt)
  | unsign n => (n.toUInt64.toNat : Int) = n.toInt
  | shift field places => places < 64 ∧ field.toNat * 2 ^ places < 2 ^ 64
  | join fields => fields.Pairwise fun a b => a &&& b = 0

theorem Exact.not_overflows {op : Operation} (h : op.Exact) : ¬ op.Overflows := by
  cases op with
  | drift => exact fun far => far h
  | increment => exact Nat.not_le.mpr h
  | elapse => exact fun far => far h.2
  | shift => exact Nat.not_le.mpr h.1
  | unsign | join => exact id

end Operation

/-! ## Workings -/

/-- A result with the operations that led to it. It stops at the operation that overflows. -/
structure Working (α : Type) where
  result : Except Overflow α
  operations : List Operation
  stops_iff : (∃ o, result = .error o) ↔ ∃ op ∈ operations, op.Overflows

namespace Working

variable {α β : Type}

/-- One operation. -/
def single (op : Operation) (result : Except Overflow α)
    (h : (∃ o, result = .error o) ↔ op.Overflows) : Working α where
  result
  operations := [op]
  stops_iff := by simpa using h

def drift (lastMs nowMs : Int64) : Working Int64 :=
  single (.drift lastMs nowMs) (Checked.sub lastMs nowMs)
    (by simp [Checked.sub, Checked.word_eq_error_iff, Operation.Overflows])

def increment (sequence : UInt16) : Working UInt16 :=
  single (.increment sequence) (Checked.increment sequence)
    (by simp [Checked.increment_eq_error_iff, Operation.Overflows])

def elapse (nowMs epochMs : Int64) : Working Int64 :=
  single (.elapse nowMs epochMs) (Checked.sub nowMs epochMs)
    (by simp [Checked.sub, Checked.word_eq_error_iff, Operation.Overflows])

def unsign (n : Int64) : Working UInt64 :=
  single (.unsign n) (.ok n.toUInt64) (by simp [Operation.Overflows])

def shift (field : UInt64) (places : Nat) (h : places < 64) : Working UInt64 :=
  single (.shift field places) (.ok (field <<< UInt64.ofNat places))
    (by simp [Operation.Overflows, h])

def join (fields : List UInt64) : Working UInt64 :=
  single (.join fields) (.ok (fields.foldl (· ||| ·) 0)) (by simp [Operation.Overflows])

/-- Nothing is computed any more once an operation has overflowed. -/
def andThen (w : Working α) (f : α → Working β) : Working β where
  result := w.result.bind fun a => (f a).result
  operations := w.operations ++
    match w.result with
    | .ok a => (f a).operations
    | .error _ => []
  stops_iff := by
    have hw := w.stops_iff
    cases hr : w.result with
    | error o =>
      rw [hr] at hw
      simpa [Except.bind] using hw
    | ok a =>
      have hnone : ¬ ∃ op ∈ w.operations, op.Overflows := by
        rw [← hw, hr]
        simp
      simp only [Except.bind, (f a).stops_iff, List.mem_append, or_and_right, exists_or, hnone,
        false_or]

instance : Monad Working where
  pure a := { result := .ok a, operations := [], stops_iff := by simp }
  bind := andThen

theorem operations_pure (a : α) : (pure a : Working α).operations = [] := rfl

theorem result_bind (w : Working α) (f : α → Working β) :
    (w >>= f).result = w.result.bind fun a => (f a).result := rfl

theorem mem_operations_bind {w : Working α} {f : α → Working β} {op : Operation} :
    op ∈ (w >>= f).operations ↔
      op ∈ w.operations ∨ ∃ a, w.result = .ok a ∧ op ∈ (f a).operations := by
  change op ∈ w.operations ++ _ ↔ _
  rw [List.mem_append]
  cases w.result <;> simp

end Working

/-! ## A turn with its working

The definitions follow those of the turn itself branch by branch. Overflow is not among the ends of a
turn here (`Decision`): it is what is left when a working has no result. -/

/-- What a turn comes to when nothing overflows. -/
inductive Decision where
  | ask (phase : Generator.Phase)
  | issue (id : UInt64) (progress : Progress)
  | refuse (cause : MintError)

def Decision.turn : Decision → Generator.Turn
  | ask phase => .ask phase
  | issue id progress => .finish (.ok (id, progress))
  | refuse cause => .finish (.error (.refused cause))

namespace Working

open Generator (Phase Turn)

def pack (elapsedMs : Int64) (dataCenter worker : UInt8) (sequence : UInt16) : Working UInt64 := do
  let elapsed ← unsign elapsedMs
  let time ← shift elapsed Layout.timeShift (by decide)
  let dataCenter ← shift dataCenter.toUInt64 Layout.dataCenterShift (by decide)
  let worker ← shift worker.toUInt64 Layout.workerShift (by decide)
  join [time, dataCenter, worker, sequence.toUInt64]

def stamp (s : Settings) (nowMs : Int64) (sequence : UInt16) : Working Decision := do
  let elapsedMs ← elapse nowMs s.epochMs
  if Layout.timeLimit ≤ elapsedMs then return .refuse .overTimeLimit
  else
    let id ← pack elapsedMs s.dataCenter s.worker sequence
    return .issue id { lastMs := nowMs, sequence }

def accept (s : Settings) (p : Progress) (nowMs : Int64) : Working (List Event × Decision) := do
  if nowMs < s.epochMs then return ([], .refuse (.clockBeforeEpoch s.epochMs nowMs))
  else if nowMs = p.lastMs then
    let next ← increment p.sequence
    let sequence := next &&& Layout.maxSequence
    if sequence = 0 then return ([.sequenceExhausted nowMs], .ask .nextMillisecond)
    else return ([], ← stamp s nowMs sequence)
  else return ([], ← stamp s nowMs 0)

def regress (s : Settings) (p : Progress) (nowMs : Int64) : Working (List Event × Decision) := do
  let driftMs ← drift p.lastMs nowMs
  if s.policy.tolerates driftMs then return ([.waiting p.lastMs nowMs driftMs], .ask .catchUp)
  else
    return ([.movedBackwards p.lastMs nowMs driftMs], .refuse (.clockMovedBackwards p.lastMs nowMs))

def respond (s : Settings) (p : Progress) (phase : Phase) (nowMs : Int64) :
    Working (List Event × Decision) :=
  match phase with
  | .entry => if nowMs < p.lastMs then regress s p nowMs else accept s p nowMs
  | .catchUp => if nowMs < p.lastMs then return ([], .ask .catchUp) else accept s p nowMs
  | .nextMillisecond =>
    if nowMs ≤ p.lastMs then return ([], .ask .nextMillisecond) else return ([], ← stamp s nowMs 0)

/-- The turn that a working comes to. -/
def turn (w : Working (List Event × Decision)) : List Event × Turn :=
  match w.result with
  | .ok (events, decision) => (events, decision.turn)
  | .error o => ([], .finish (.error (.overflowed o)))

/-! ## The same turn -/

section Turn

variable {α : Type} {w : Working α} {f : α → Working (List Event × Decision)}

theorem turn_bind_of_ok {a : α} (h : w.result = .ok a) : (w >>= f).turn = (f a).turn := by
  rw [turn, result_bind, h]
  rfl

theorem turn_bind_of_error {o : Overflow} (h : w.result = .error o) :
    (w >>= f).turn = ([], .finish (.error (.overflowed o))) := by
  rw [turn, result_bind, h]
  rfl

end Turn

theorem result_pack (elapsedMs : Int64) (dataCenter worker : UInt8) (sequence : UInt16) :
    (pack elapsedMs dataCenter worker sequence).result =
      .ok (Layout.pack elapsedMs.toUInt64 dataCenter worker sequence) := by
  simp [pack, result_bind, Except.bind, single, unsign, shift, join, Layout.pack]

/-- The result of a stamp once the time is known. -/
theorem result_stamp_of_ok {s : Settings} {nowMs elapsedMs : Int64}
    (h : Checked.sub nowMs s.epochMs = .ok elapsedMs) (sequence : UInt16) :
    (stamp s nowMs sequence).result =
      .ok (if Layout.timeLimit ≤ elapsedMs then .refuse .overTimeLimit
        else .issue (Layout.pack elapsedMs.toUInt64 s.dataCenter s.worker sequence)
          { lastMs := nowMs, sequence }) := by
  have helapse : (elapse nowMs s.epochMs).result = .ok elapsedMs := h
  rw [stamp, result_bind, helapse, Except.bind]
  by_cases hlate : Layout.timeLimit ≤ elapsedMs
  · rw [if_pos hlate, if_pos hlate]
    rfl
  · rw [if_neg hlate, if_neg hlate, result_bind, result_pack]
    rfl

theorem turn_stamp (s : Settings) (nowMs : Int64) (sequence : UInt16) :
    (do return ([], ← stamp s nowMs sequence) : Working _).turn =
      ([], .finish (Generator.stamp s nowMs sequence)) := by
  unfold Generator.stamp
  cases hsub : Checked.sub nowMs s.epochMs with
  | error o =>
    have hstops : (stamp s nowMs sequence).result = .error o := by
      have helapse : (elapse nowMs s.epochMs).result = .error o := hsub
      rw [stamp, result_bind, helapse, Except.bind]
    exact turn_bind_of_error hstops
  | ok elapsedMs =>
    rw [turn_bind_of_ok (result_stamp_of_ok hsub sequence)]
    by_cases hlate : Layout.timeLimit ≤ elapsedMs
    · simp only [hlate, if_true]
      rfl
    · simp only [hlate, if_false]
      rfl

theorem turn_accept (s : Settings) (p : Progress) (nowMs : Int64) :
    (accept s p nowMs).turn = Generator.accept s p nowMs := by
  unfold accept Generator.accept
  by_cases hearly : nowMs < s.epochMs
  · rw [if_pos hearly, if_pos hearly]
    rfl
  · rw [if_neg hearly, if_neg hearly]
    by_cases hsame : nowMs = p.lastMs
    · rw [if_pos hsame, if_pos hsame]
      cases hinc : Checked.increment p.sequence with
      | error o => exact turn_bind_of_error hinc
      | ok next =>
        rw [turn_bind_of_ok hinc]
        by_cases haround : next &&& Layout.maxSequence = 0
        · simp only [haround, if_true]
          rfl
        · simp only [haround, if_false]
          exact turn_stamp s nowMs _
    · rw [if_neg hsame, if_neg hsame]
      exact turn_stamp s nowMs 0

theorem turn_regress (s : Settings) (p : Progress) (nowMs : Int64) :
    (regress s p nowMs).turn = Generator.regress s p nowMs := by
  unfold regress Generator.regress
  cases hdrift : Checked.sub p.lastMs nowMs with
  | error o => exact turn_bind_of_error hdrift
  | ok driftMs =>
    rw [turn_bind_of_ok hdrift]
    by_cases htolerates : s.policy.tolerates driftMs = true
    · simp only [htolerates, if_true]
      rfl
    · simp only [htolerates]
      rfl

/-- **Writing the working down changes nothing.** -/
theorem turn_respond (s : Settings) (p : Progress) (phase : Phase) (nowMs : Int64) :
    (respond s p phase nowMs).turn = Generator.respond s p phase nowMs := by
  cases phase with
  | entry =>
    rw [respond, Generator.respond]
    split
    · exact turn_regress s p nowMs
    · exact turn_accept s p nowMs
  | catchUp =>
    rw [respond, Generator.respond]
    split
    · rfl
    · exact turn_accept s p nowMs
  | nextMillisecond =>
    rw [respond, Generator.respond]
    split
    · rfl
    · exact turn_stamp s nowMs 0

/-- A turn ends in an overflow exactly if an operation on record overflows. -/
theorem overflows_iff_turn (w : Working (List Event × Decision)) :
    (∃ op ∈ w.operations, op.Overflows) ↔ ∃ o, w.turn.2 = .finish (.error (.overflowed o)) := by
  rw [← w.stops_iff, turn]
  cases w.result with
  | error o => simp
  | ok decided =>
    obtain ⟨events, decision⟩ := decided
    cases decision <;> simp [Decision.turn]

end Working

/-! ## The operations of a call -/

namespace Generator

variable {s : Settings} {p : Progress} {phase phase' : Phase} {nowMs : Int64}
  {events : List Event} {outcome : Outcome (UInt64 × Progress)} {rest : List Reading}

/-- The operations of a call from a phase on, turn by turn. -/
def operationsFrom (s : Settings) (p : Progress) : Phase → List Reading → List Operation
  | _, [] => []
  | _, .fault _ :: _ => []
  | phase, .time nowMs :: rest =>
    (Working.respond s p phase nowMs).operations ++
      match respond s p phase nowMs with
      | (_, .finish _) => []
      | (_, .ask phase') => operationsFrom s p phase' rest

/-- The operations of a call. A poisoned generator computes nothing. -/
def operations (g : Generator) (supply : List Reading) : List Operation :=
  if g.poisoned then [] else operationsFrom g.settings g.progress .entry supply

theorem operationsFrom_of_finish (h : respond s p phase nowMs = (events, .finish outcome)) :
    operationsFrom s p phase (.time nowMs :: rest) =
      (Working.respond s p phase nowMs).operations := by
  simp only [operationsFrom, h, List.append_nil]

theorem operationsFrom_of_ask (h : respond s p phase nowMs = (events, .ask phase')) :
    operationsFrom s p phase (.time nowMs :: rest) =
      (Working.respond s p phase nowMs).operations ++ operationsFrom s p phase' rest := by
  simp only [operationsFrom, h]

theorem overflowed_answer_iff (s : Settings) (p : Progress) (phase : Phase)
    (supply : List Reading) :
    (∃ o, (answer s p phase supply).outcome = .error (.overflowed o)) ↔
      ∃ op ∈ operationsFrom s p phase supply, op.Overflows := by
  induction phase, supply using answer.induct s p with
  | case1 phase => simp [answer, operationsFrom]
  | case2 phase f rest => simp [answer, operationsFrom]
  | case3 phase nowMs rest events outcome hturn =>
    rw [answer_of_finish hturn, operationsFrom_of_finish hturn, Working.overflows_iff_turn,
      Working.turn_respond, hturn]
    simp
  | case4 phase nowMs rest events phase' hturn ih =>
    -- A turn that asks for another reading has not stopped.
    have hgoesOn : ¬ ∃ op ∈ (Working.respond s p phase nowMs).operations, op.Overflows := by
      rw [Working.overflows_iff_turn, Working.turn_respond, hturn]
      simp
    rw [answer_of_ask hturn, operationsFrom_of_ask hturn, ih]
    simp only [List.mem_append, or_and_right, exists_or, hgoesOn, false_or]

/-- **A call is broken off by an overflow exactly if one of its operations overflows.** -/
theorem overflowed_iff (g : Generator) (supply : List Reading) :
    (∃ o, (g.call supply).1.outcome = .error (.overflowed o)) ↔
      ∃ op ∈ g.operations supply, op.Overflows := by
  cases hpoisoned : g.poisoned with
  | true => simp [call_of_poisoned hpoisoned, operations, hpoisoned]
  | false =>
    simp only [operations, hpoisoned, Bool.false_eq_true, if_false]
    rw [← overflowed_answer_iff, call_of_live hpoisoned]
    cases hr : (answer g.settings g.progress .entry supply).outcome with
    | ok answered => simp [Report.map, hr, Except.map]
    | error f => simp [Report.map, hr, Except.map]

end Generator
end IdMint

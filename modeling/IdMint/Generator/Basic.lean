import IdMint.Layout
import IdMint.Outcome

/-!
# Generators

A generator remembers how far it has come: the last millisecond it issued an id for and the
sequence number of that id (`Progress`). A call for the next id is a conversation with the clock.
It may need more than one reading, for it waits out a small step back of the clock, and it waits
for the next millisecond when the sequence numbers of this one are used up.

`Generator.respond` is one turn of that conversation. It says what a call does with one reading:
ask for another, in a phase that says what it is waiting for, or end. It never looks at more than
the progress it started from and the reading at hand, and it proposes new progress only together
with an id, so a call that ends in any other way has nothing to take back.
-/

namespace IdMint

/-- How far a generator has come. Before the first id, the last millisecond is the one before
1970, which no epoch allows an id for. -/
structure Progress where
  lastMs : Int64 := -1
  sequence : UInt16 := 0
  deriving DecidableEq, Repr, Inhabited

/-- A source of ids: its settings, the clock it reads, how far it has come, and whether an earlier
call crashed in the middle, after which it answers no more. -/
structure Generator where
  settings : Settings
  clock : ClockName := .system
  progress : Progress := {}
  poisoned : Bool := false
  deriving DecidableEq, Repr, Inhabited

namespace Generator

/-! ## One turn of a call -/

/-- What a call is waiting for. -/
inductive Phase where
  /-- The time at which it is made. -/
  | entry
  /-- A clock that went back to reach the last issued millisecond again. -/
  | catchUp
  /-- The clock to pass the last issued millisecond. -/
  | nextMillisecond
  deriving DecidableEq, Repr

/-- How a call goes on after a reading: with a further reading, or with its end. An id comes with
the progress that it makes. -/
inductive Turn where
  | ask (phase : Phase)
  | finish (outcome : Outcome (UInt64 × Progress))

/-- The end of a call that may issue an id for this millisecond with this sequence number. -/
def stamp (s : Settings) (nowMs : Int64) (sequence : UInt16) : Outcome (UInt64 × Progress) :=
  match Checked.sub nowMs s.epochMs with
  | .error o => .error (.overflowed o)
  | .ok elapsedMs =>
    if Layout.timeLimit ≤ elapsedMs then .error (.refused .overTimeLimit)
    else
      .ok (Layout.pack elapsedMs.toUInt64 s.dataCenter s.worker sequence,
        { lastMs := nowMs, sequence })

/-- A reading that is not behind the last issued millisecond. In a new millisecond the sequence
begins at zero; in the same one it goes on, and once it has come round the call waits. -/
def accept (s : Settings) (p : Progress) (nowMs : Int64) : List Event × Turn :=
  if nowMs < s.epochMs then
    ([], .finish (.error (.refused (.clockBeforeEpoch s.epochMs nowMs))))
  else if nowMs = p.lastMs then
    match Checked.increment p.sequence with
    | .error o => ([], .finish (.error (.overflowed o)))
    | .ok next =>
      let sequence := next &&& Layout.maxSequence
      if sequence = 0 then ([.sequenceExhausted nowMs], .ask .nextMillisecond)
      else ([], .finish (stamp s nowMs sequence))
  else ([], .finish (stamp s nowMs 0))

/-- A first reading behind the last issued millisecond: the policy decides whether to wait. -/
def regress (s : Settings) (p : Progress) (nowMs : Int64) : List Event × Turn :=
  match Checked.sub p.lastMs nowMs with
  | .error o => ([], .finish (.error (.overflowed o)))
  | .ok driftMs =>
    if s.policy.tolerates driftMs then ([.waiting p.lastMs nowMs driftMs], .ask .catchUp)
    else
      ([.movedBackwards p.lastMs nowMs driftMs],
        .finish (.error (.refused (.clockMovedBackwards p.lastMs nowMs))))

/-- What a call does with a reading. -/
def respond (s : Settings) (p : Progress) (phase : Phase) (nowMs : Int64) : List Event × Turn :=
  match phase with
  | .entry => if nowMs < p.lastMs then regress s p nowMs else accept s p nowMs
  | .catchUp => if nowMs < p.lastMs then ([], .ask .catchUp) else accept s p nowMs
  | .nextMillisecond =>
    if nowMs ≤ p.lastMs then ([], .ask .nextMillisecond) else ([], .finish (stamp s nowMs 0))

end Generator
end IdMint

import IdMint.Clock
import IdMint.Event
import IdMint.MintError

/-!
# Outcomes and reports

A request ends in an answer or in a failure. A failure is a refusal, which leaves everything as it
was and names its cause, or a crash: arithmetic that left its word, or a clock that failed. A
request may also run out of readings before it is decided; it is then *unanswered*, which is how an
endless wait looks to someone who gave it only finitely many readings.

A report is the outcome together with what else a caller can see: the events, in order, and the
number of readings taken.
-/

namespace IdMint

/-- How a request ends without an answer. -/
inductive Failure where
  | refused (cause : MintError)
  | overflowed (o : Overflow)
  | clockFailed (f : ClockFault)
  | unanswered
  deriving DecidableEq, Repr

/-- Whether a failure breaks off a request in the middle. -/
def Failure.isCrash : Failure → Bool
  | overflowed _ | clockFailed _ => true
  | refused _ | unanswered => false

/-- An answer, or how the request ended without one. -/
abbrev Outcome (α : Type) := Except Failure α

/-- All that a caller can see of one request. -/
structure Report (α : Type) where
  outcome : Outcome α
  events : List Event := []
  /-- The readings that the request took. -/
  reads : Nat := 0

namespace Report

/-- The same report with its answer put in other words. -/
def map {α β : Type} (f : α → β) (r : Report α) : Report β := { r with outcome := r.outcome.map f }

end Report
end IdMint

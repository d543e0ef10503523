import IdMint.Layout
import IdMint.Outcome

/-!
# Batches of ids

Calls made one after the other give a batch: the ids, in the order in which they were issued, and
the failure that cut the batch short, if one did. A batch of ids also shows where it comes from.
`Survey` collects what its fields show: which machines marked the ids, whether they increase, and
whether every one of them was issued within the time that the calls took.
-/

namespace IdMint

/-- The ids of several calls, and what stopped them early. -/
structure Batch where
  ids : List UInt64 := []
  stop? : Option Failure := none
  deriving DecidableEq, Repr, Inhabited

/-! ## Lists of ids -/

namespace Ids

def increasing (ids : List UInt64) : Bool := (ids.zip ids.tail).all fun (a, b) => decide (a < b)

def sum (ids : List UInt64) : UInt64 := ids.foldl (· + ·) 0

/-- The values that occur, each once, in order. -/
def distinct (values : List UInt64) : List UInt64 :=
  (values.mergeSort fun a b => decide (a ≤ b)).eraseReps

end Ids

/-! ## What a batch shows -/

structure Survey where
  count : Nat
  /-- The values of each field, each once and in order. -/
  msb : List UInt64
  dataCenters : List UInt64
  workers : List UInt64
  increasing : Bool
  /-- Every id says that it was issued between the two times given. -/
  timely : Bool
  deriving DecidableEq, Repr

/-- The time that an id shows for an epoch lies between two times, both included. -/
def Parts.timely (p : Parts) (epochMs sinceMs untilMs : Int64) : Bool :=
  match p.issuedMs epochMs with
  | .ok ms => sinceMs ≤ ms && ms ≤ untilMs
  | .error _ => false

/-- The survey of ids that one generator issued between two times. -/
def Survey.ofIds (ids : List UInt64) (epochMs sinceMs untilMs : Int64) : Survey :=
  let parts := ids.map Layout.unpack
  { count := ids.length
    msb := Ids.distinct (parts.map Parts.msb)
    dataCenters := Ids.distinct (parts.map Parts.dataCenter)
    workers := Ids.distinct (parts.map Parts.worker)
    increasing := Ids.increasing ids
    timely := parts.all fun p => p.timely epochMs sinceMs untilMs }

end IdMint

/-!
# Clocks

A clock answers a reading with a time or with a fault. The rest of the library never asks how a
clock works: what a call is given is its *supply*, the list of readings that it may take, in order,
and what it hands back is how many of them it took.

Two clocks are made here. A *scripted* clock plays a queue of times and then stands still at a last
one, if it has one. It may be read only so often in one go, so that nothing waits on it forever. A
*steady* clock moves on by one millisecond every so many readings.

The queue of a scripted clock is kept as stretches, each a time with the number of readings that it
lasts for, and a stretch may be far longer than anything that can be written out. So no operation
writes one out: `Stretch.first` makes only the readings that are asked for, and `Stretch.drop` only
counts.
-/

namespace IdMint

inductive ClockFault where
  | exhausted
  /-- The clock was read too often in one go. -/
  | stuck
  deriving DecidableEq, Repr

/-- What a clock answers: a time in milliseconds since 1970, or a fault. -/
inductive Reading where
  | time (ms : Int64)
  | fault (f : ClockFault)
  deriving DecidableEq, Repr, Inhabited

/-- Which clock is read: the system's, or one of the caller's own, known by its name. -/
inductive ClockName where
  | system
  | named (name : String)
  deriving DecidableEq, Repr, Inhabited

/-- A clock as it is shown where it is named. -/
def ClockName.text : ClockName → String
  | .system => "SystemClock"
  | .named name => name

/-! ## Stretches of time -/

/-- A time that so many readings in a row answer with. -/
structure Stretch where
  ms : Int64
  count : Nat := 1
  deriving DecidableEq, Repr, Inhabited

namespace Stretch

/-- The first times of a queue, at most so many. What comes after them is not looked at. -/
def first : List Stretch → Nat → List Int64
  | _, 0 => []
  | [], _ + 1 => []
  | s :: rest, limit + 1 =>
    List.replicate (min (limit + 1) s.count) s.ms ++ first rest (limit + 1 - s.count)

/-- What is left of a queue after so many readings. -/
def drop : List Stretch → Nat → List Stretch
  | [], _ => []
  | s :: rest, reads =>
    if reads < s.count then { s with count := s.count - reads } :: rest
    else drop rest (reads - s.count)

end Stretch

/-! ## Scripted clocks -/

/-- Times to be read one after the other, and the time to stand still at when they are used up. -/
structure Clock where
  queue : List Stretch := []
  now? : Option Int64 := none
  deriving DecidableEq, Repr, Inhabited

namespace Clock

/-- How often a clock may be read in one go. -/
def patience : Nat := 10000

/-- The times that a clock answers in one go, as long as patience lasts. -/
def times (c : Clock) (limit : Nat) : List Int64 :=
  let queued := Stretch.first c.queue limit
  match c.now? with
  | some now => queued ++ List.replicate (limit - queued.length) now
  | none => queued

/-- All readings that one go may take. The last one is a fault: the clock is stuck once patience
is used up, and exhausted if its times are used up before. -/
def supply (c : Clock) (limit : Nat) : List Reading :=
  let times := c.times limit
  times.map .time ++ [.fault (if times.length < limit then .exhausted else .stuck)]

/-- The clock after so many successful readings. Standing still is not used up. -/
def advance (c : Clock) (reads : Nat) : Clock := { c with queue := Stretch.drop c.queue reads }

/-- The clock stopped at a time, with nothing queued before it. -/
def stoppedAt (now? : Option Int64) : Clock := { queue := [], now? }

/-- The clock with more times to play before it stands still. -/
def push (c : Clock) (stretches : List Stretch) : Clock :=
  { c with queue := c.queue ++ stretches }

end Clock

/-! ## Steady clocks -/

/-- A clock that moves on by one millisecond every `period` readings. -/
structure SteadyClock where
  startMs : Int64
  period : Nat
  taken : Nat := 0
  deriving DecidableEq, Repr, Inhabited

namespace SteadyClock

/-- What the clock reads after so many further readings. -/
def time (c : SteadyClock) (later : Nat) : Int64 :=
  c.startMs + Int64.ofNat ((c.taken + later) / c.period)

/-- The next readings of the clock, so many of them. -/
def supply (c : SteadyClock) (count : Nat) : List Reading :=
  (List.range count).map fun i => .time (c.time i)

def advance (c : SteadyClock) (reads : Nat) : SteadyClock := { c with taken := c.taken + reads }

end SteadyClock
end IdMint

import IdMint.ObjectId.Basic

/-!
# Sources of object ids

A process takes its object ids from one source: five bytes chosen once, and a counter that every id
moves on by one. The counter is a 32-bit word that wraps, and an id shows its lowest three bytes, so
the counters shown go round through all of their values before one comes again. What an id says of
the time is up to whoever asks for it.
-/

namespace IdMint.ObjectId

/-- Where the object ids of one process come from. -/
structure Source where
  process : List UInt8
  length_process : process.length = 5
  /-- Of this word the next id shows the lowest three bytes. -/
  counter : UInt32
  deriving Repr

def counters : Nat := 0x1000000

namespace Source

/-- The id that shows these seconds, and the source after it. -/
def mint (s : Source) (secs : UInt32) : ObjectId × Source :=
  ({ bytes := BigEndian.bytes 4 secs.toNat ++ s.process
        ++ BigEndian.bytes 3 (s.counter.toNat % counters)
     length_bytes := by simp [BigEndian.length_bytes, s.length_process] },
    { s with counter := s.counter + 1 })

/-- Several ids, one for each of the seconds given. -/
def mintAll (s : Source) : List UInt32 → List ObjectId × Source
  | [] => ([], s)
  | secs :: rest =>
    let (id, s) := s.mint secs
    let (ids, s) := s.mintAll rest
    (id :: ids, s)

/-- A source with bytes and a first counter drawn at random. -/
def ofDice (dice : StdGen) : Source × StdGen :=
  let byte (n : Nat) : UInt8 := UInt8.ofNat (n % 256)
  let (a, dice) := stdNext dice
  let (b, dice) := stdNext dice
  let (c, dice) := stdNext dice
  let (d, dice) := stdNext dice
  let (e, dice) := stdNext dice
  let (counter, dice) := stdNext dice
  ({ process := [byte a, byte b, byte c, byte d, byte e]
     length_process := rfl
     counter := UInt32.ofNat (counter % counters) }, dice)

end Source

/-! ## What several ids show -/

/-- The seconds of a time, as the word that an id has room for. -/
def seconds (ms : Int64) : UInt32 := UInt32.ofInt (ms.toInt / 1000)

/-- An id is from the time between two others, both included. -/
def timely (id : ObjectId) (sinceMs untilMs : Int64) : Bool :=
  seconds sinceMs ≤ id.issuedSecs && id.issuedSecs ≤ seconds untilMs

/-- Whether the text of an id spells it again. -/
def readsBack (id : ObjectId) : Bool :=
  match ofText id.hex with
  | .ok again => again == id
  | .error _ => false

def distinctCount (ids : List ObjectId) : Nat := (sort ids).eraseReps.length

/-- The distances from one counter to the next, around the circle of counters, each once and in
order. -/
def counterSteps (ids : List ObjectId) : List Nat :=
  let steps := (ids.zip ids.tail).map fun (a, b) =>
    (b.counter.toNat + counters - a.counter.toNat) % counters
  (steps.mergeSort fun a b => decide (a ≤ b)).eraseReps

structure Survey where
  count : Nat
  distinct : Nat
  sameProcess : Bool
  counterSteps : List Nat
  /-- The text of every id spells it again. -/
  readBack : Bool
  /-- Every id is from the time between the two given. -/
  timely : Bool
  deriving DecidableEq, Repr

/-- The survey of ids asked for between two times. -/
def Survey.ofIds (ids : List ObjectId) (sinceMs untilMs : Int64) : Survey where
  count := ids.length
  distinct := distinctCount ids
  sameProcess := (ids.zip ids.tail).all fun (a, b) => a.process == b.process
  counterSteps := ObjectId.counterSteps ids
  readBack := ids.all readsBack
  timely := ids.all fun id => id.timely sinceMs untilMs

end IdMint.ObjectId

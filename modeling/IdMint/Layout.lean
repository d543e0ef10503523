import IdMint.Calendar.Moment
import IdMint.Checked
import IdMint.Text.Shape

/-!
# The layout of an id

An id is an unsigned 64-bit word. Below its top bit, which is never set in an id that was issued,
stand four fields, the most significant first: 41 bits of milliseconds since the epoch, 5 bits of
data center, 5 bits of worker and 12 bits of sequence. `pack` joins the fields and `unpack` takes
any word apart, also one that was never issued.
-/

namespace IdMint

open Text (Shape)

namespace Layout

/-! ## Widths and places -/

def sequenceBits : Nat := 12

def workerBits : Nat := 5

def dataCenterBits : Nat := 5

/-- All that the other fields and the top bit leave. -/
def timeBits : Nat := 63 - sequenceBits - workerBits - dataCenterBits

def workerShift : Nat := sequenceBits

def dataCenterShift : Nat := sequenceBits + workerBits

def timeShift : Nat := dataCenterShift + dataCenterBits

/-- A word whose lowest bits, so many of them, are set and no others. -/
def mask (bits : Nat) : UInt64 := (1 <<< UInt64.ofNat bits) - 1

/-- The largest sequence number, which is also the mask of its field. -/
def maxSequence : UInt16 := (1 <<< UInt16.ofNat sequenceBits) - 1

/-- The first number of milliseconds that is too large for the time field. -/
def timeLimit : Int64 := 1 <<< Int64.ofNat timeBits

/-! ## Joining and taking apart -/

/-- The id with these fields. A field that is wider than its place would run into its neighbour. -/
def pack (elapsed : UInt64) (dataCenter worker : UInt8) (sequence : UInt16) : UInt64 :=
  elapsed <<< UInt64.ofNat timeShift
    ||| dataCenter.toUInt64 <<< UInt64.ofNat dataCenterShift
    ||| worker.toUInt64 <<< UInt64.ofNat workerShift
    ||| sequence.toUInt64

/-- The field of a word that begins at a bit and is so many bits wide. -/
def field (id : UInt64) (shift bits : Nat) : UInt64 := id >>> UInt64.ofNat shift &&& mask bits

end Layout

/-- A word with its fields. -/
structure Parts where
  id : UInt64
  msb : UInt64
  /-- Milliseconds since the epoch of the generator that issued the id. -/
  time : UInt64
  dataCenter : UInt64
  worker : UInt64
  sequence : UInt64
  deriving DecidableEq, Repr, Inhabited

namespace Layout

def unpack (id : UInt64) : Parts where
  id
  msb := field id 63 1
  time := field id timeShift timeBits
  dataCenter := field id dataCenterShift dataCenterBits
  worker := field id workerShift workerBits
  sequence := field id 0 sequenceBits

end Layout

namespace Parts

/-- When an id was issued, in milliseconds since 1970, for the epoch of its generator. -/
def issuedMs (p : Parts) (epochMs : Int64) : Except Overflow Int64 :=
  Checked.add epochMs p.time.toInt64

/-- When an id was issued, as a moment. The calendar may not reach that far. -/
def moment? (p : Parts) (epochMs : Int64) : Except Overflow (Option Calendar.Moment) :=
  (p.issuedMs epochMs).map fun ms => Calendar.Moment.ofMs? ms.toInt

def shape (p : Parts) : Shape :=
  .record "DecomposedSnowflake"
    [("id", .text p.id), ("msb", .text p.msb), ("time", .text p.time),
     ("data_center_id", .text p.dataCenter), ("worker_id", .text p.worker),
     ("sequence", .text p.sequence)] false

end Parts
end IdMint

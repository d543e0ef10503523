import IdMint.Checked
import IdMint.Text.Quoted
import IdMint.Text.Shape

/-!
# Causes of refusal

A request that the mint turns down comes back with its cause. Causes are data: which setting was
wrong, which reading came too early, and the numbers that show it. The sentence for a reader is
written in one place (`MintError.message`), and so is the form that shows the data
(`MintError.shape`).

One sentence does arithmetic of its own. It says by how many milliseconds a clock went back, and
that distance may be too large for a word, so `message` may end in an overflow instead of a text.
-/

namespace IdMint

open Text (Shape)

/-- Why a request is refused. -/
inductive MintError where
  | epochNegative (epochMs : Int64)
  /-- The epoch lies after the reading it was checked against. -/
  | epochAhead (epochMs nowMs : Int64)
  | dataCenterOutOfRange (given : Int64)
  | workerOutOfRange (given : Int64)
  /-- An environment variable is set to something that it does not accept. -/
  | invalidVariable (name value : String)
  /-- The clock reads earlier than the last issued millisecond, and the policy does not wait. -/
  | clockMovedBackwards (lastMs nowMs : Int64)
  | clockBeforeEpoch (epochMs nowMs : Int64)
  | overTimeLimit
  /-- An earlier call crashed while it held the generator. -/
  | poisoned
  | invalidObjectId (text : String)
  deriving DecidableEq, Repr

namespace MintError

/-! ## Families -/

/-- The cause is a setting that no generator may have. -/
def concernsSettings : MintError → Bool
  | epochNegative _ | epochAhead _ _ | dataCenterOutOfRange _ | workerOutOfRange _
  | invalidVariable _ _ => true
  | _ => false

/-- The cause is a clock that reads earlier than a time already known. -/
def concernsClock : MintError → Bool
  | clockMovedBackwards _ _ | clockBeforeEpoch _ _ => true
  | _ => false

/-! ## Texts -/

def kind : MintError → String
  | epochNegative _ => "EpochNegative"
  | epochAhead _ _ => "EpochAheadOfCurrentTime"
  | dataCenterOutOfRange _ => "DataCenterIdOutOfRange"
  | workerOutOfRange _ => "WorkerIdOutOfRange"
  | invalidVariable _ _ => "InvalidEnvVar"
  | clockMovedBackwards _ _ => "ClockMovedBackwards"
  | clockBeforeEpoch _ _ => "ClockBeforeEpoch"
  | overTimeLimit => "OverTimeLimit"
  | poisoned => "MutexPoisoned"
  | invalidObjectId _ => "InvalidObjectId"

/-- The sentence that explains a cause. Only the distance of a clock that went back has to be
computed for it. -/
def message : MintError → Except Overflow String
  | epochNegative epochMs => .ok s!"epoch `{epochMs}` ms must not be negative"
  | epochAhead epochMs nowMs =>
    .ok s!"epoch `{epochMs}` ms is ahead of current time `{nowMs}` ms"
  | dataCenterOutOfRange given => .ok s!"data_center_id `{given}` is out of range [0, 31]"
  | workerOutOfRange given => .ok s!"worker_id `{given}` is out of range [0, 31]"
  | invalidVariable name value =>
    .ok s!"environment variable `{name}` has invalid value `{value}`"
  | clockMovedBackwards lastMs nowMs =>
    (Checked.sub lastMs nowMs).map fun driftMs =>
      s!"clock moved backwards by {driftMs} ms (last issued at {lastMs}, now {nowMs}), " ++
        "refusing to generate id"
  | clockBeforeEpoch epochMs nowMs =>
    .ok s!"clock `{nowMs}` ms is before the epoch `{epochMs}` ms"
  | overTimeLimit => .ok "over the time limit"
  | poisoned => .ok "mutex is poisoned (i.e. a panic happened while it was locked)"
  | invalidObjectId text => .ok s!"invalid object id `{text}`"

/-- A cause with its data: values without names stand in parentheses, named ones in braces, and a
cause without data is its name alone. -/
def shape (e : MintError) : Shape :=
  let bare (value : Shape) : Shape := .tuple e.kind [value]
  let named (fields : List (String × Shape)) : Shape := .record e.kind fields false
  let quoted (t : String) : Shape := .plain (Text.Quoted.quote t)
  match e with
  | epochNegative n | dataCenterOutOfRange n | workerOutOfRange n => bare (.text n)
  | epochAhead epochMs nowMs | clockBeforeEpoch epochMs nowMs =>
    named [("epoch_ms", .text epochMs), ("now_ms", .text nowMs)]
  | clockMovedBackwards lastMs nowMs =>
    named [("last_ms", .text lastMs), ("now_ms", .text nowMs)]
  | invalidVariable name value => named [("name", quoted name), ("value", quoted value)]
  | invalidObjectId text => bare (quoted text)
  | overTimeLimit | poisoned => .plain e.kind

end MintError
end IdMint

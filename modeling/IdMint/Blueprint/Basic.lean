import IdMint.Generator.Basic
import IdMint.Instant

/-!
# Blueprints

A blueprint is a generator that is still being described. Its numbers are plain 64-bit words that
nobody has looked at yet; each setting replaces what was there before. `Blueprint.build` checks
all of them at once, against one reading of the clock that the generator will use, and is the only
place where a setting is refused. The order of its checks decides which of several faults is
reported.
-/

namespace IdMint

open Text (Shape)

/-- A generator that is still being described. -/
structure Blueprint where
  epochMs : Int64 := 0
  dataCenter : Int64 := 0
  worker : Int64 := 0
  policy : Policy := .fail
  clock : ClockName := .system
  deriving DecidableEq, Repr, Inhabited

/-- One thing to say about a generator. An epoch can be said in two ways. -/
inductive Setting where
  | epoch (ms : Int64)
  | start (instant : Instant)
  | dataCenter (given : Int64)
  | worker (given : Int64)
  | policy (policy : Policy)
  | clock (clock : ClockName)
  deriving DecidableEq, Repr

namespace Blueprint

/-! ## Describing -/

def set (b : Blueprint) : Setting → Blueprint
  | .epoch ms => { b with epochMs := ms }
  | .start instant => { b with epochMs := instant.toMs }
  | .dataCenter given => { b with dataCenter := given }
  | .worker given => { b with worker := given }
  | .policy policy => { b with policy }
  | .clock clock => { b with clock }

def configure (b : Blueprint) (settings : List Setting) : Blueprint := settings.foldl set b

def shape (b : Blueprint) : Shape :=
  .record "Builder"
    [("epoch", .text b.epochMs), ("data_center_id", .text b.dataCenter),
     ("worker_id", .text b.worker), ("clock_backward_policy", b.policy.shape),
     ("time", .plain b.clock.text)] false

/-! ## Checking -/

/-- A number that marks a machine, if it is between zero and the largest one. -/
def mark? (largest given : Int64) : Option UInt8 :=
  if 0 ≤ given ∧ given ≤ largest then some (UInt8.ofNat given.toInt.toNat) else none

/-- The settings of a blueprint whose epoch is not negative, at the time of a reading. -/
def validate (b : Blueprint) (nowMs : Int64) : Except MintError Settings :=
  if nowMs < b.epochMs then .error (.epochAhead b.epochMs nowMs)
  else
    match mark? Settings.maxDataCenter b.dataCenter with
    | none => .error (.dataCenterOutOfRange b.dataCenter)
    | some dataCenter =>
      match mark? Settings.maxWorker b.worker with
      | none => .error (.workerOutOfRange b.worker)
      | some worker => .ok { epochMs := b.epochMs, dataCenter, worker, policy := b.policy }

/-- A new generator, or the first fault of the blueprint. A negative epoch is a fault at any time,
so the clock is not read for it. -/
def build (b : Blueprint) (supply : List Reading) : Report Generator :=
  if b.epochMs < 0 then { outcome := .error (.refused (.epochNegative b.epochMs)) }
  else
    match supply with
    | [] => { outcome := .error .unanswered }
    | .fault f :: _ => { outcome := .error (.clockFailed f) }
    | .time nowMs :: _ =>
      match b.validate nowMs with
      | .error cause => { outcome := .error (.refused cause), reads := 1 }
      | .ok settings =>
        { outcome := .ok { settings, clock := b.clock }
          events := [.created settings]
          reads := 1 }

end Blueprint
end IdMint

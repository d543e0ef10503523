import IdMint.Text.Shape

/-!
# What a generator is set to

`Policy` says what a generator does when its clock goes back. `Settings` is all that is fixed for
the life of a generator: the epoch that its ids count from, the two numbers that mark the machine,
and the policy. The fields are machine words of the widths that an id gives them room for and
nothing here checks them; a `Blueprint` does, once, before it hands settings out.
-/

namespace IdMint

open Text (Shape)

/-! ## Policy -/

/-- What to do when the clock reads earlier than the last millisecond an id was issued for. -/
inductive Policy where
  | fail
  /-- Wait for the clock if it is at most this far behind, refuse otherwise. -/
  | wait (maxDriftMs : Int64)
  deriving DecidableEq, Repr

namespace Policy

/-- Whether a clock that is so far behind is waited for. -/
def tolerates : Policy → Int64 → Bool
  | fail, _ => false
  | wait maxDriftMs, driftMs => driftMs ≤ maxDriftMs

def shape : Policy → Shape
  | fail => .plain "Fail"
  | wait maxDriftMs => .record "Wait" [("max_drift_ms", .text maxDriftMs)] false

end Policy

instance : Inhabited Policy := ⟨.fail⟩

/-! ## Settings -/

/-- All that is fixed for the life of a generator. Left out, a setting is zero, and the policy is
to fail. -/
structure Settings where
  /-- The millisecond that ids count from. -/
  epochMs : Int64 := 0
  dataCenter : UInt8 := 0
  worker : UInt8 := 0
  policy : Policy := .fail
  deriving DecidableEq, Repr, Inhabited

namespace Settings

def maxDataCenter : Int64 := 31

def maxWorker : Int64 := 31

/-- Settings as they are shown: an open record, for a generator also has parts that are not. -/
def shape (s : Settings) : Shape :=
  .record "Snowflake"
    [("epoch_ms", .text s.epochMs), ("data_center_id", .text s.dataCenter),
     ("worker_id", .text s.worker), ("clock_backward_policy", s.policy.shape)] true

end Settings
end IdMint

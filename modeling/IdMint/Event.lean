import IdMint.Settings

/-!
# Events

What happens to a generator beside its answers: it is created, it is installed in a registry, its
millisecond runs out of sequence numbers, or its clock is seen to go back. An event carries the
numbers that an operator needs, and says how loud it is. Events are data handed back with the
answer, in the order in which they happened; who listens is not this library's concern.
-/

namespace IdMint

/-- How loud an event is. -/
inductive Level where
  | debug
  | info
  | warn
  deriving DecidableEq, Repr

def Level.name : Level → String
  | .debug => "DEBUG"
  | .info => "INFO"
  | .warn => "WARN"

/-- Something that happened to a generator. -/
inductive Event where
  | created (settings : Settings)
  | installed (settings : Settings)
  /-- All sequence numbers of this millisecond are used up, so the call waits for the next. -/
  | sequenceExhausted (atMs : Int64)
  | waiting (lastMs nowMs driftMs : Int64)
  | movedBackwards (lastMs nowMs driftMs : Int64)
  deriving DecidableEq, Repr

namespace Event

def level : Event → Level
  | created _ | installed _ => .info
  | sequenceExhausted _ => .debug
  | waiting _ _ _ | movedBackwards _ _ _ => .warn

/-- The sentence of an event. Its numbers are beside it, not in it. -/
def message : Event → String
  | created _ => "created snowflake generator"
  | installed _ => "installed snowflake generator"
  | sequenceExhausted _ => "sequence exhausted, spinning until next millisecond"
  | waiting _ _ _ => "clock moved backwards, waiting for it to catch up"
  | movedBackwards _ _ _ => "clock moved backwards"

end Event
end IdMint

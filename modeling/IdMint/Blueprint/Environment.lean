import IdMint.Blueprint.Basic
import IdMint.Text.Blank
import IdMint.Text.Numeral

/-!
# Blueprints from an environment

Four variables may describe a generator. They are looked up one after the other in a fixed order,
each at most once, and the first one whose value is no good ends the look-up: the ones after it are
not even asked for. A value is a decimal numeral, with blanks around it allowed. Setting the largest
drift also chooses the policy: to wait. Its value must not be negative.

What a number means for a generator is not looked at here. A blueprint with a worker of 32 is a
blueprint; `Blueprint.build` refuses it.
-/

namespace IdMint

/-! ## Variables -/

inductive Variable where
  | epoch
  | dataCenter
  | worker
  | maxDrift
  deriving DecidableEq, Repr

namespace Variable

def name : Variable → String
  | epoch => "IDKIT_EPOCH_MS"
  | dataCenter => "IDKIT_DATA_CENTER_ID"
  | worker => "IDKIT_WORKER_ID"
  | maxDrift => "IDKIT_MAX_CLOCK_DRIFT_MS"

/-- All variables, in the order in which they are looked up. -/
def all : List Variable := [epoch, dataCenter, worker, maxDrift]

/-- What a variable says when its value is this number. -/
def setting (v : Variable) (value : Int64) : Except MintError Setting :=
  match v with
  | epoch => .ok (.epoch value)
  | dataCenter => .ok (.dataCenter value)
  | worker => .ok (.worker value)
  | maxDrift =>
    if value < 0 then .error (.invalidVariable v.name (toString value))
    else .ok (.policy (.wait value))

/-- What a variable says when it is set to this text. A text that is no number is reported as it
stands, blanks included. -/
def read (v : Variable) (value : String) : Except MintError Setting :=
  match Text.Numeral.readWord? (Text.Blank.trim value.toList) with
  | none => .error (.invalidVariable v.name value)
  | some number => v.setting number

/-! ## Looking up -/

/-- What variables say, looked up in their order, and the names that were asked for. -/
def consult (lookup : String → Option String) :
    List Variable → List String × Except MintError (List Setting)
  | [] => ([], .ok [])
  | v :: rest =>
    match (lookup v.name).map v.read with
    | some (.error cause) => ([v.name], .error cause)
    | some (.ok setting) =>
      let (asked, settings) := consult lookup rest
      (v.name :: asked, settings.map (setting :: ·))
    | none =>
      let (asked, settings) := consult lookup rest
      (v.name :: asked, settings)

end Variable

/-- The blueprint that variables describe, and the names that were asked for. -/
def Blueprint.ofVariables (lookup : String → Option String) :
    List String × Except MintError Blueprint :=
  let (asked, settings) := Variable.consult lookup Variable.all
  (asked, settings.map (Blueprint.configure {}))

/-! ## The environment of a process -/

/-- The variables of a process with the bytes that they are set to. -/
abbrev Environment := List (String × ByteArray)

namespace Environment

/-- The text of a variable. Bytes that are no text count as if the variable were not set. -/
def text? (e : Environment) (name : String) : Option String :=
  (e.find? fun entry => entry.1 == name).bind fun entry => String.fromUTF8? entry.2

def blueprint (e : Environment) : Except MintError Blueprint := (Blueprint.ofVariables e.text?).2

end Environment
end IdMint

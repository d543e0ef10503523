import IdMint.Blueprint.Environment
import IdMint.Directory
import IdMint.Fleet

/-!
# Sessions

A session is a workbench: clocks that a caller sets and winds, generators built on them, and
handles under which the generators are found again. A caller gives commands, and each one is
answered with a report before the next is looked at.

Two handles may stand for the same generator; a clone is nothing but a second handle. To drop a
handle does nothing to the generator behind it. Two generators may also read the same clock, and
each command takes its readings from where the one before it stopped. One command may read a clock
only as often as the clock has patience for.
-/

namespace IdMint

/-- Clocks, generators, and the handles that stand for generators. -/
structure Session where
  clocks : Directory Clock := {}
  fleet : Fleet := {}
  handles : Directory Fleet.Ref := {}
  deriving Inhabited

/-! ## Commands and answers -/

/-- Where a blueprint begins: at the defaults, or at what variables say. -/
inductive Origin where
  | blank
  | variables (values : Directory String)

def Origin.blueprint : Origin → Except MintError Blueprint
  | .blank => .ok {}
  | .variables values => (Blueprint.ofVariables values.get?).2

inductive Command where
  /-- Build a generator and keep it under a handle. -/
  | build (handle : String) (origin : Origin) (settings : List Setting)
  | next (handle : String)
  | draw (handle : String) (count : Nat)
  | clone (handle copy : String)
  | drop (handle : String)
  | inspect (handle : String)
  /-- Stop a clock at a time, or empty it. -/
  | stop (clock : String) (now? : Option Int64)
  /-- Give a clock more times to play. -/
  | wind (clock : String) (stretches : List Stretch)
  | read (clock : String)

inductive Answer where
  | settings (settings : Settings)
  | issued (id : UInt64) (settings : Settings)
  | drawn (batch : Batch)
  | dropped (wasHeld : Bool)
  | time (ms : Int64)
  | done
  /-- No generator is held under the handle. -/
  | vacant

namespace Session

/-! ## Clocks -/

/-- The readings that one command may take from a clock. -/
def supply (s : Session) : ClockName → List Reading
  | .system => []
  | .named name => ((s.clocks.get? name).map fun c => c.supply Clock.patience).getD []

def changeClock (s : Session) (name : String) (change : Clock → Clock) : Session :=
  { s with clocks := s.clocks.set name (change ((s.clocks.get? name).getD {})) }

/-- The session after so many readings of a clock. -/
def advance (s : Session) (clock : ClockName) (reads : Nat) : Session :=
  match clock with
  | .system => s
  | .named name => s.changeClock name fun c => c.advance reads

/-! ## Generators -/

/-- The generator under a handle, and its ref. -/
def held? (s : Session) (handle : String) : Option (Fleet.Ref × Generator) := do
  let ref ← s.handles.get? handle
  let g ← s.fleet.get? ref
  some (ref, g)

/-- A command on the generator under a handle, if there is one. -/
def onGenerator (s : Session) (handle : String)
    (act : Fleet.Ref → Generator → Report Answer × Session) : Report Answer × Session :=
  match s.held? handle with
  | none => ({ outcome := .ok .vacant }, s)
  | some (ref, g) => act ref g

/-- Build a generator. A blueprint that is refused leaves the handle as it was. -/
def build (s : Session) (handle : String) (origin : Origin) (settings : List Setting) :
    Report Answer × Session :=
  match origin.blueprint with
  | .error cause => ({ outcome := .error (.refused cause) }, s)
  | .ok start =>
    let b := start.configure settings
    let report := b.build (s.supply b.clock)
    let s := s.advance b.clock report.reads
    (report.map fun g => .settings g.settings,
      match report.outcome with
      | .error _ => s
      | .ok g =>
        let (ref, fleet) := s.fleet.add g
        { s with fleet, handles := s.handles.set handle ref })

/-! ## Commands -/

/-- The answer to a command, and the session after it. -/
def perform (s : Session) : Command → Report Answer × Session
  | .build handle origin settings => s.build handle origin settings
  | .next handle =>
    s.onGenerator handle fun ref g =>
      let (report, fleet) := s.fleet.call ref (s.supply g.clock)
      (report.map fun id => .issued id g.settings,
        { s with fleet }.advance g.clock report.reads)
  | .draw handle count =>
    s.onGenerator handle fun ref g =>
      let (report, fleet) := s.fleet.draw ref (s.supply g.clock) count
      (report.map .drawn, { s with fleet }.advance g.clock report.reads)
  | .clone handle copy =>
    s.onGenerator handle fun ref _ =>
      ({ outcome := .ok .done }, { s with handles := s.handles.set copy ref })
  | .drop handle =>
    ({ outcome := .ok (.dropped (s.handles.get? handle).isSome) },
      { s with handles := s.handles.erase handle })
  | .inspect handle =>
    s.onGenerator handle fun _ g => ({ outcome := .ok (.settings g.settings) }, s)
  | .stop clock now? =>
    ({ outcome := .ok .done }, s.changeClock clock fun _ => .stoppedAt now?)
  | .wind clock stretches =>
    ({ outcome := .ok .done }, s.changeClock clock fun c => c.push stretches)
  | .read clock =>
    match s.supply (.named clock) with
    | [] => ({ outcome := .error .unanswered }, s)
    | .fault f :: _ => ({ outcome := .error (.clockFailed f) }, s)
    | .time ms :: _ =>
      ({ outcome := .ok (.time ms), reads := 1 }, s.advance (.named clock) 1)

/-- The reports on a list of commands, and the session after them. -/
def run (s : Session) : List Command → List (Report Answer) × Session
  | [] => ([], s)
  | command :: rest =>
    let (report, s) := s.perform command
    let (reports, s) := s.run rest
    (report :: reports, s)

end Session
end IdMint

import IdMint.Blueprint.Basic
import IdMint.Directory
import IdMint.Mint.Basic

/-!
# Desks

A desk is where one caller deals with a mint: errands are given one at a time, generators that a
look-up found may be kept under names, and the clock of the system ticks along. Ids are answered for
by a survey of what they show, with the times between which they were asked for, since which ids
they are depends on when the errand was run.
-/

namespace IdMint

/-- A mint, the clock that it reads, and generators kept under names. -/
structure Desk where
  mint : Mint
  clock : SteadyClock
  kept : Directory Fleet.Ref := {}

/-! ## Errands -/

/-- What may be asked for at a desk. -/
inductive Errand where
  /-- Build a generator and draw so many ids from it, for nobody else to use. -/
  | trial (blueprint : Blueprint) (count : Nat)
  | install (blueprint : Blueprint)
  /-- Install a new generator with all settings left out. -/
  | installPlain
  | installKept (name : String)
  /-- See the installed generator, and keep it if a name is given. -/
  | current (name? : Option String)
  /-- Look up the registry's generator, and keep it if a name is given. -/
  | generator (name? : Option String)
  | hasFallback
  | next (count : Nat)
  | nextKept (name : String) (count : Nat)
  | identifier (kind : IdKind) (count : Nat)
  | objectIds (count : Nat)
  | token (length : Nat)

/-- What an errand comes back with. -/
inductive Finding where
  | done
  | settings (settings? : Option Settings)
  | hasFallback (made : Bool)
  | survey (survey : Survey)
  | trial (settings : Settings) (survey : Survey)
  /-- Ids as texts: what they show, and whether every text is the canonical one. -/
  | decimals (survey : Survey) (canonical : Bool)
  | token (text : String)
  /-- An object id as a text: whether it spells an id that has this text, and whether that id is
  from the time of the errand. -/
  | objectId (text : String) (canonical timely : Bool)
  | objectIds (survey : ObjectId.Survey)
  /-- Nothing is kept under the name. -/
  | vacant

namespace Desk

/-! ## Timing -/

/-- Do something that takes at most so many readings, between two readings of the clock that are told
to whoever makes the finding. An id takes one reading, for this clock never goes back and never
stands still for as many readings as there are sequence numbers. -/
def timed {α : Type} (d : Desk) (readings : Nat)
    (act : Mint → List Reading → Report α × Mint) (find : Int64 → Int64 → Mint → α → Finding) :
    Report Finding × Desk :=
  let since := d.clock.time 0
  let (report, mint) := act d.mint ((d.clock.advance 1).supply readings)
  let clock := d.clock.advance (report.reads + 1)
  (report.map (find since (clock.time 0) mint), { d with mint, clock := clock.advance 1 })

/-- The epoch of a generator, or the default one if there is no such generator. -/
def epochOf (m : Mint) (ref? : Option Fleet.Ref) : Int64 :=
  ((ref?.bind m.registry.fleet.get?).getD { settings := {} }).settings.epochMs

def idsOf (responses : List Response) : List UInt64 :=
  responses.filterMap fun
    | .id id => some id
    | .text t => t.toNat?.map UInt64.ofNat
    | _ => none

/-- Whether every text among responses is the decimal of an id, without anything that could be left
out. -/
def canonical (responses : List Response) : Bool :=
  responses.all fun
    | .text t => t.toNat?.any fun n => n < UInt64.size && toString n == t
    | _ => true

/-! ## Installing -/

def installNew (d : Desk) (g : Generator) : Report Finding × Desk :=
  let (ref, mint) := d.mint.enroll g
  let (report, mint) := mint.install ref
  (report.map fun _ => .done, { d with mint })

/-- Build a generator on the clock of the system, and go on with it if it is not refused. -/
def build (d : Desk) (b : Blueprint) (use : Desk → Generator → Report Finding × Desk) :
    Report Finding × Desk :=
  let report := b.build (d.clock.supply 1)
  let d := { d with clock := d.clock.advance report.reads }
  match report.outcome with
  | .error f => ({ report with outcome := .error f }, d)
  | .ok g =>
    let (later, d) := use d g
    ({ later with
        events := report.events ++ later.events
        reads := report.reads + later.reads }, d)

/-- Draw ids from a generator that is not in any registry. -/
def trial (d : Desk) (g : Generator) (count : Nat) : Report Finding × Desk :=
  let act (m : Mint) (supply : List Reading) : Report Batch × Mint :=
    ((g.draw supply count).1, m)
  d.timed count act fun since till _ batch =>
    .trial g.settings (.ofIds batch.ids g.settings.epochMs since till)

/-! ## Running errands -/

/-- See a generator, and keep it if there is one and a name is given. -/
def see (d : Desk) (ref? : Option Fleet.Ref) (name? : Option String) : Finding × Desk :=
  let settings? := (ref?.bind d.mint.registry.fleet.get?).map Generator.settings
  let kept :=
    match ref?, name? with
    | some ref, some name => d.kept.set name ref
    | _, _ => d.kept
  (.settings settings?, { d with kept })

def drawToken (d : Desk) (length : Nat) : Report Finding × Desk :=
  let (text, mint) := d.mint.token length
  ({ outcome := .ok (.token text) }, { d with mint })

def ask (d : Desk) (request : Request) (count : Nat)
    (find : Int64 → Int64 → Mint → List Response → Finding) : Report Finding × Desk :=
  d.timed count (fun m supply => m.performAll supply (List.replicate count request)) find

/-- An errand on a generator that is kept, if there is one under the name. -/
def withKept (d : Desk) (name : String) (use : Fleet.Ref → Report Finding × Desk) :
    Report Finding × Desk :=
  match d.kept.get? name with
  | none => ({ outcome := .ok .vacant }, d)
  | some ref => use ref

/-- What an errand comes back with, and the desk after it. -/
def run (d : Desk) : Errand → Report Finding × Desk
  | .trial b count => d.build b fun d g => d.trial g count
  | .install b => d.build b installNew
  | .installPlain =>
    let (report, d) := d.installNew { settings := {} }
    ({ report with events := .created {} :: report.events }, d)
  | .installKept name =>
    d.withKept name fun ref =>
      let (report, mint) := d.mint.install ref
      (report.map fun _ => .done, { d with mint })
  | .current name? =>
    let (finding, d) := d.see d.mint.registry.installed? name?
    ({ outcome := .ok finding }, d)
  | .generator name? =>
    let (ref, events, registry) := d.mint.registry.generator
    let (finding, d) := { d with mint := { d.mint with registry } }.see (some ref) name?
    ({ outcome := .ok finding, events }, d)
  | .hasFallback => ({ outcome := .ok (.hasFallback d.mint.registry.fallback?.isSome) }, d)
  | .next count =>
    d.ask .next count fun since till m responses =>
      .survey (.ofIds (idsOf responses) (epochOf m m.registry.installed?) since till)
  | .nextKept name count =>
    d.withKept name fun ref =>
      d.ask (.nextOf ref) count fun since till m responses =>
        .survey (.ofIds (idsOf responses) (epochOf m (some ref)) since till)
  | .identifier .snowflake count =>
    d.ask (.identifier .snowflake) count fun since till m responses =>
      .decimals (.ofIds (idsOf responses) (epochOf m m.registry.installed?) since till)
        (canonical responses)
  | .identifier .random _ => d.drawToken IdKind.randomLength
  | .token length => d.drawToken length
  | .identifier .objectId _ =>
    d.timed 1 Mint.objectId fun since till _ id =>
      .objectId id.hex id.readsBack (id.timely since till)
  | .objectIds count =>
    d.timed count (fun m supply => m.objectIdsFor supply count) fun since till _ ids =>
      .objectIds (.ofIds ids since till)

def runAll (d : Desk) : List Errand → List (Report Finding) × Desk
  | [] => ([], d)
  | errand :: rest =>
    let (report, d) := d.run errand
    let (reports, d) := d.runAll rest
    (report :: reports, d)

end Desk
end IdMint

import IdMint.ObjectId.Source
import IdMint.Registry
import IdMint.Text.Token

/-!
# The mint

A mint hands out identifiers of all kinds: ids from the generator that its registry holds, object
ids from its source, and random tokens. A `Request` is what one caller may ask of it. `Mint.perform`
answers a request in one go; what happens when requests of several callers overlap is in
`IdMint.Mint.Callers`.

The registry is touched only by requests about generators. Tokens and object ids have parts of the
mint to themselves, so no number of them changes what anyone is answered about a generator.
-/

namespace IdMint

/-- The kinds of identifiers. -/
inductive IdKind where
  /-- An id of the registry's generator, in decimal. -/
  | snowflake
  | random
  /-- An object id, in hexadecimal. -/
  | objectId
  deriving DecidableEq, Repr

namespace IdKind

def all : List IdKind := [snowflake, random, objectId]

def name : IdKind → String
  | snowflake => "Snowflake"
  | random => "Random"
  | objectId => "ObjectId"

def randomLength : Nat := 16

end IdKind

/-! ## Requests -/

/-- What a caller may ask of a mint. -/
inductive Request where
  | install (ref : Fleet.Ref)
  /-- The installed generator, if there is one. -/
  | current
  /-- The installed generator, with the fallback put in first if there is none. -/
  | generator
  /-- Whether the fallback has been made. -/
  | hasFallback
  | next
  /-- The next id of a generator that the caller holds. -/
  | nextOf (ref : Fleet.Ref)
  | identifier (kind : IdKind)
  deriving DecidableEq, Repr

inductive Response where
  | done
  | current (ref? : Option Fleet.Ref)
  | generator (ref : Fleet.Ref)
  | hasFallback (made : Bool)
  | id (id : UInt64)
  | text (text : String)
  deriving DecidableEq, Repr

/-- Whether a request has to look up the registry's generator. -/
def Request.looksUp : Request → Bool
  | .generator | .next | .identifier .snowflake => true
  | _ => false

/-- A registry, a source of object ids, and a source of chance. -/
structure Mint where
  registry : Registry := {}
  objectIds : ObjectId.Source
  dice : StdGen

namespace Mint

/-- A mint that nobody has asked for anything, with chance from a seed. -/
def ofSeed (seed : Nat) : Mint :=
  let (objectIds, dice) := ObjectId.Source.ofDice (mkStdGen seed)
  { objectIds, dice }

/-! ## Answering -/

/-- The mint with a new generator that the registry does not hand out yet, and its ref. -/
def enroll (m : Mint) (g : Generator) : Fleet.Ref × Mint :=
  let (ref, fleet) := m.registry.fleet.add g
  (ref, { m with registry := { m.registry with fleet } })

/-- The next id of a generator, in the words of the response. -/
def callOn (m : Mint) (ref : Fleet.Ref) (supply : List Reading) (say : UInt64 → Response) :
    Report Response × Mint :=
  let (report, fleet) := m.registry.fleet.call ref supply
  (report.map say, { m with registry := { m.registry with fleet } })

/-- The answer to a request once the registry's generator is found. -/
def withGenerator (m : Mint) (request : Request) (ref : Fleet.Ref) (supply : List Reading) :
    Report Response × Mint :=
  match request with
  | .next => m.callOn ref supply .id
  | .identifier _ => m.callOn ref supply fun id => .text (toString id)
  | _ => ({ outcome := .ok (.generator ref) }, m)

def token (m : Mint) (length : Nat) : String × Mint :=
  let (text, dice) := Text.Token.draw m.dice length
  (text, { m with dice })

def objectId (m : Mint) (supply : List Reading) : Report ObjectId × Mint :=
  match supply with
  | [] => ({ outcome := .error .unanswered }, m)
  | .fault f :: _ => ({ outcome := .error (.clockFailed f) }, m)
  | .time ms :: _ =>
    let (id, objectIds) := m.objectIds.mint (ObjectId.seconds ms)
    ({ outcome := .ok id, reads := 1 }, { m with objectIds })

/-- Object ids one after the other, each for the time of a reading of its own. -/
def objectIdsFor (m : Mint) (supply : List Reading) : Nat → Report (List ObjectId) × Mint
  | 0 => ({ outcome := .ok [] }, m)
  | n + 1 =>
    let (first, m) := m.objectId supply
    match first.outcome with
    | .error f => ({ first with outcome := .error f }, m)
    | .ok id =>
      let (later, m) := m.objectIdsFor (supply.drop first.reads) n
      ({ outcome := later.outcome.map (id :: ·), reads := first.reads + later.reads }, m)

/-- Put a generator into the registry. Nobody answers for a ref that was never given. -/
def install (m : Mint) (ref : Fleet.Ref) : Report Response × Mint :=
  match m.registry.fleet.get? ref with
  | none => ({ outcome := .error .unanswered }, m)
  | some g =>
    ({ outcome := .ok .done, events := [.installed g.settings] },
      { m with registry := m.registry.install ref })

/-- The answer to a request that nobody interrupts. -/
def perform (m : Mint) (request : Request) (supply : List Reading) : Report Response × Mint :=
  match request with
  | .install ref => m.install ref
  | .current => ({ outcome := .ok (.current m.registry.installed?) }, m)
  | .hasFallback => ({ outcome := .ok (.hasFallback m.registry.fallback?.isSome) }, m)
  | .nextOf ref => m.callOn ref supply .id
  | .identifier .random =>
    let (text, m) := m.token IdKind.randomLength
    ({ outcome := .ok (.text text) }, m)
  | .identifier .objectId =>
    let (report, m) := m.objectId supply
    (report.map fun id => .text id.hex, m)
  | .generator | .next | .identifier .snowflake =>
    let (ref, events, registry) := m.registry.generator
    let (report, m) := { m with registry }.withGenerator request ref supply
    ({ report with events := events ++ report.events }, m)

/-- The answers to requests made one after the other over one supply, up to the first failure. -/
def performAll (m : Mint) (supply : List Reading) : List Request → Report (List Response) × Mint
  | [] => ({ outcome := .ok [] }, m)
  | request :: rest =>
    let (first, m) := m.perform request supply
    match first.outcome with
    | .error f => ({ first with outcome := .error f }, m)
    | .ok response =>
      let (later, m) := m.performAll (supply.drop first.reads) rest
      ({ outcome := later.outcome.map (response :: ·)
         events := first.events ++ later.events
         reads := first.reads + later.reads }, m)

end Mint
end IdMint

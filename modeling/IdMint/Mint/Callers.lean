import IdMint.Mint.Basic

/-!
# Callers that overlap

Several callers use one mint. Each has a list of requests and makes them one after the other, but
between two actions of one caller any other may act. A *schedule* says who acts when, and with what
readings of the clock; every schedule is allowed, so what holds for all of them holds however the
callers are run.

An action is what no other caller can see half done: one action of a look-up, one read or write of
a cell, or one call on a generator. `Mint.act` is one action of a request. A caller's request is
over when its last action is, and `Crowd.run` lists the requests that were, each with the times of
its first and its last action.
-/

namespace IdMint

/-! ## One action of a request -/

/-- A request after an action: it needs a further one, or it is over. -/
inductive Step where
  | later (lookup : Lookup) (events : List Event)
  | over (report : Report Response)

/-- One action of a request whose look-up has come so far. A request that looks nothing up is over
at once. -/
def Mint.act (m : Mint) (request : Request) (lookup : Lookup) (supply : List Reading) :
    Step × Mint :=
  if request.looksUp then
    match lookup with
    | .found ref =>
      let (report, m) := m.withGenerator request ref supply
      (.over report, m)
    | lookup =>
      let (lookup, events, registry) := lookup.advance m.registry
      let m := { m with registry }
      match request, lookup with
      | .generator, .found ref => (.over { outcome := .ok (.generator ref), events }, m)
      | _, lookup => (.later lookup events, m)
  else
    let (report, m) := m.perform request supply
    (.over report, m)

/-! ## Callers -/

/-- A request that has begun and is not over. -/
structure Activity where
  request : Request
  lookup : Lookup
  events : List Event
  /-- The time of its first action. -/
  started : Nat

/-- Someone who makes requests one after the other. -/
structure Caller where
  todo : List Request
  doing? : Option Activity := none

namespace Caller

/-- What a caller does when it is to act at this time: what it is doing, or else its next request.
A caller with nothing to do does nothing. -/
def pick (c : Caller) (time : Nat) : Option (Activity × List Request) :=
  match c.doing?, c.todo with
  | some activity, todo => some (activity, todo)
  | none, request :: todo =>
    some ({ request, lookup := .loading, events := [], started := time }, todo)
  | none, [] => none

end Caller

/-- A request that is over. -/
structure Completion where
  caller : Nat
  request : Request
  report : Report Response
  /-- The times of its first and its last action. -/
  started : Nat
  ended : Nat

/-- One entry of a schedule: who acts, and the readings that the action may take. -/
structure Move where
  caller : Nat
  supply : List Reading

/-- A mint and those who use it. -/
structure Crowd where
  mint : Mint
  callers : Array Caller

namespace Crowd

/-- One entry of a schedule carried out. It may bring a request to its end. -/
def step (c : Crowd) (time : Nat) (move : Move) : Option Completion × Crowd :=
  match (c.callers[move.caller]?).bind fun caller => caller.pick time with
  | none => (none, c)
  | some (activity, todo) =>
    let (step, mint) := c.mint.act activity.request activity.lookup move.supply
    match step with
    | .later lookup events =>
      let doing? := some { activity with lookup, events := activity.events ++ events }
      (none, { mint, callers := c.callers.setIfInBounds move.caller { todo, doing? } })
    | .over report =>
      (some
        { caller := move.caller
          request := activity.request
          report := { report with events := activity.events ++ report.events }
          started := activity.started
          ended := time },
        { mint, callers := c.callers.setIfInBounds move.caller { todo } })

/-- The requests that are over at the end of a schedule that begins at a time, in the order in which
they ended, and the crowd at its end. -/
def run (c : Crowd) (time : Nat) : List Move → List Completion × Crowd
  | [] => ([], c)
  | move :: rest =>
    let (completion?, c) := c.step time move
    let (completions, c) := c.run (time + 1) rest
    (completion?.toList ++ completions, c)

end Crowd

/-! ## Taking turns -/

/-- No request takes more actions than this: three of a look-up, and one call. -/
def Request.maxActions : Nat := 4

namespace Crowd

def alike (mint : Mint) (callers : Nat) (todo : List Request) : Crowd :=
  { mint, callers := Array.replicate callers { todo } }

/-- The schedule in which the callers act in rounds until all of their requests are over, with the
readings that are given for each entry of it. -/
def rounds (c : Crowd) (supply : Nat → List Reading) : List Move :=
  let longest := c.callers.foldl (fun n caller => max n caller.todo.length) 0
  (List.range (Request.maxActions * longest * c.callers.size)).map fun i =>
    { caller := i % c.callers.size, supply := supply i }

/-- The requests of all callers, made in rounds, and the mint after them. -/
def serve (c : Crowd) (supply : Nat → List Reading) : List Completion × Mint :=
  let (completions, c) := c.run 0 (c.rounds supply)
  (completions, c.mint)

end Crowd

/-! ## What the callers got -/

namespace Completion

def id? (c : Completion) : Option UInt64 :=
  match c.report.outcome with
  | .ok (.id id) => some id
  | _ => none

def idsOf (completions : List Completion) (caller : Nat) : List UInt64 :=
  (completions.filter fun c => c.caller == caller).filterMap id?

end Completion

/-- What the ids of several callers show. -/
structure Tally where
  count : Nat
  distinct : Nat
  increasing : Bool
  least? : Option UInt64
  greatest? : Option UInt64
  deriving DecidableEq, Repr

def Tally.ofCompletions (callers : Nat) (completions : List Completion) : Tally :=
  let each := (List.range callers).map (Completion.idsOf completions)
  let distinct := Ids.distinct each.flatten
  { count := each.flatten.length
    distinct := distinct.length
    increasing := each.all Ids.increasing
    least? := distinct.head?
    greatest? := distinct.getLast? }

end IdMint

import IdMint.Batch
import IdMint.Generator.Basic

/-!
# Calls

A call takes readings from its supply, one turn each, until it ends. `Generator.answer` is that
loop, by recursion on the supply, and `Generator.call` is a call as its caller sees it: a poisoned
generator refuses before it reads anything, an id moves the generator on, a refusal leaves it as it
was, and a crash poisons it.

`Generator.draw` makes calls one after the other on what is left of one supply, and stops at the
first that fails.
-/

namespace IdMint
namespace Generator

/-! ## One call -/

/-- A call from a phase on, over the readings that it may take. -/
def answer (s : Settings) (p : Progress) (phase : Phase) :
    List Reading → Report (UInt64 × Progress)
  | [] => { outcome := .error .unanswered }
  | .fault f :: _ => { outcome := .error (.clockFailed f) }
  | .time nowMs :: rest =>
    match respond s p phase nowMs with
    | (events, .finish outcome) => { outcome, events, reads := 1 }
    | (events, .ask phase) =>
      let later := answer s p phase rest
      { later with events := events ++ later.events, reads := later.reads + 1 }

/-- The generator after a call that ended so. -/
def settle (g : Generator) : Outcome (UInt64 × Progress) → Generator
  | .ok (_, progress) => { g with progress }
  | .error f => if f.isCrash then { g with poisoned := true } else g

def call (g : Generator) (supply : List Reading) : Report UInt64 × Generator :=
  if g.poisoned then ({ outcome := .error (.refused .poisoned) }, g)
  else
    let r := answer g.settings g.progress .entry supply
    (r.map Prod.fst, g.settle r.outcome)

/-! ## Several calls -/

/-- Up to `n` calls over one supply. -/
def draw (g : Generator) (supply : List Reading) : Nat → Report Batch × Generator
  | 0 => ({ outcome := .ok {} }, g)
  | n + 1 =>
    let (first, g) := g.call supply
    match first.outcome with
    | .error f => ({ first with outcome := .ok { stop? := some f } }, g)
    | .ok id =>
      let (later, g) := g.draw (supply.drop first.reads) n
      ({ outcome := later.outcome.map fun b => { b with ids := id :: b.ids }
         events := first.events ++ later.events
         reads := first.reads + later.reads }, g)

end Generator
end IdMint

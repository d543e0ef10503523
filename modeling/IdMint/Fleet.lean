import IdMint.Generator.Call

/-!
# Fleets

A fleet is all the generators that some party deals with. Each has a `Ref`, given to it when it
joins and never given again, and whoever holds the ref makes calls on that generator: two holders
of one ref share everything about it, and holders of different refs share nothing. No generator ever
leaves, for a ref may still be held somewhere.
-/

namespace IdMint

/-- Generators by the order in which they joined. -/
structure Fleet where
  members : Array Generator := #[]
  deriving Repr, Inhabited

/-- What stands for a generator of a fleet. -/
abbrev Fleet.Ref := Nat

namespace Fleet

/-- The generator that a ref stands for, as it is now. -/
def get? (f : Fleet) (ref : Ref) : Option Generator := f.members[ref]?

/-- The fleet with a new generator, and the ref that it got. -/
def add (f : Fleet) (g : Generator) : Ref × Fleet :=
  (f.members.size, { members := f.members.push g })

/-- The fleet with a generator moved on. -/
def update (f : Fleet) (ref : Ref) (g : Generator) : Fleet :=
  { members := f.members.setIfInBounds ref g }

/-- A call for the next id of a generator. Nobody answers for a ref that was never given. -/
def call (f : Fleet) (ref : Ref) (supply : List Reading) : Report UInt64 × Fleet :=
  match f.get? ref with
  | none => ({ outcome := .error .unanswered }, f)
  | some g =>
    let (report, g) := g.call supply
    (report, f.update ref g)

/-- Several calls on one generator, up to the first that fails. -/
def draw (f : Fleet) (ref : Ref) (supply : List Reading) (n : Nat) : Report Batch × Fleet :=
  match f.get? ref with
  | none => ({ outcome := .error .unanswered }, f)
  | some g =>
    let (report, g) := g.draw supply n
    (report, f.update ref g)

/-! ## Histories -/

/-- A call as it stands in a history: whom it was made on, and the readings that it could take. -/
structure Call where
  ref : Ref
  supply : List Reading
  deriving DecidableEq, Repr

/-- The reports on calls made one after the other, each whole before the next, and the fleet after
them. A call that fails does not keep later ones from being made. -/
def run (f : Fleet) : List Call → List (Report UInt64) × Fleet
  | [] => ([], f)
  | c :: rest =>
    let (report, f) := f.call c.ref c.supply
    let (reports, f) := f.run rest
    (report :: reports, f)

/-! ## Other generators are not touched -/

theorem get?_update (f : Fleet) (ref other : Ref) (g : Generator) :
    (f.update ref g).get? other = if other = ref then (f.get? ref).map fun _ => g
      else f.get? other := by
  simp only [get?, update, Array.getElem?_setIfInBounds]
  by_cases h : other = ref
  · subst h
    by_cases hb : other < f.members.size <;> simp [hb]
  · simp [h, Ne.symm h]

theorem get?_add (f : Fleet) (g : Generator) (ref : Ref) :
    (f.add g).2.get? ref = if ref = (f.add g).1 then some g else f.get? ref := by
  simp only [get?, add, Array.getElem?_push]
  rfl

end Fleet
end IdMint

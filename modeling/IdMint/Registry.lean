import IdMint.Fleet

/-!
# Registries

A registry keeps the generator that all of its callers share. It has two cells: the *installed*
generator, which callers get, and the *fallback*, made once for callers who come before anyone has
installed a generator.

A look-up is not one action but up to three, with other callers' actions between them: read the
installed cell; if it was empty, take the fallback, making it if it is not there yet; offer the
fallback to the installed cell, which takes it only if it is still empty. `Lookup` says how far one
has come and `Lookup.advance` does one action. `Registry.generator` is a look-up that nobody
interrupts, and `advance_three` says that three actions in a row come to the same.
-/

namespace IdMint

/-- Two cells, and all generators that have ever been in them or may be put there. -/
structure Registry where
  fleet : Fleet := {}
  installed? : Option Fleet.Ref := none
  fallback? : Option Fleet.Ref := none
  deriving Repr, Inhabited

namespace Registry

/-! ## Single actions -/

/-- Put a generator into the installed cell, whatever was there. -/
def install (r : Registry) (ref : Fleet.Ref) : Registry := { r with installed? := some ref }

/-- The fallback, made with all settings left out if nobody has asked for it before. -/
def takeFallback (r : Registry) : Fleet.Ref × List Event × Registry :=
  match r.fallback? with
  | some ref => (ref, [], r)
  | none =>
    let (ref, fleet) := r.fleet.add { settings := {} }
    (ref, [.created {}], { r with fleet, fallback? := some ref })

/-- Put a generator into the installed cell if the cell is empty. The generator that is in the cell
afterwards is the answer. -/
def offer (r : Registry) (ref : Fleet.Ref) : Fleet.Ref × Registry :=
  match r.installed? with
  | some installed => (installed, r)
  | none => (ref, r.install ref)

/-! ## Looking up -/

/-- The generator that callers get, with the fallback installed first if there is none. -/
def generator (r : Registry) : Fleet.Ref × List Event × Registry :=
  match r.installed? with
  | some ref => (ref, [], r)
  | none =>
    let (ref, events, r) := r.takeFallback
    let (ref, r) := r.offer ref
    (ref, events, r)

end Registry

/-- How far a look-up has come. -/
inductive Lookup where
  /-- About to read the installed cell. -/
  | loading
  /-- The cell was empty; about to take the fallback. -/
  | taking
  /-- About to offer the fallback to the cell. -/
  | offering (fallback : Fleet.Ref)
  | found (ref : Fleet.Ref)
  deriving DecidableEq, Repr

namespace Lookup

def advance (l : Lookup) (r : Registry) : Lookup × List Event × Registry :=
  match l with
  | loading =>
    match r.installed? with
    | some ref => (found ref, [], r)
    | none => (taking, [], r)
  | taking =>
    let (ref, events, r) := r.takeFallback
    (offering ref, events, r)
  | offering fallback =>
    let (ref, r) := r.offer fallback
    (found ref, [], r)
  | found ref => (found ref, [], r)

/-- Several actions of a look-up that nobody interrupts, with their events in order. -/
def advances (l : Lookup) (r : Registry) : Nat → Lookup × List Event × Registry
  | 0 => (l, [], r)
  | n + 1 =>
    let (l, first, r) := l.advance r
    let (l, later, r) := l.advances r n
    (l, first ++ later, r)

/-- Uninterrupted, three actions find what `Registry.generator` finds, with the same effect. -/
theorem advance_three (r : Registry) :
    loading.advances r 3
      = (found r.generator.1, r.generator.2.1, r.generator.2.2) := by
  obtain ⟨fleet, installed?, fallback?⟩ := r
  cases installed? <;> cases fallback? <;> rfl

end Lookup
end IdMint

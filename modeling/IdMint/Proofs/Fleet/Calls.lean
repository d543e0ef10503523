import IdMint.Fleet
import IdMint.Proofs.Generator.Issue

/-!
# Calls through a fleet

A call on one generator leaves the others alone, and no call changes what any of them is set to. So
a fleet that has been in use holds the generators that it held before, as `Fleet.Keeps` says, and a
generator that joins may as well have been there all the time (`Fleet.call_add`).
-/

namespace IdMint
namespace Fleet

/-! ## One call -/

theorem call_of_get? {f : Fleet} {ref : Ref} {g : Generator} (h : f.get? ref = some g)
    (supply : List Reading) :
    f.call ref supply = ((g.call supply).1, f.update ref (g.call supply).2) := by
  simp only [call, h]

theorem update_of_get? {f : Fleet} {ref : Ref} {g : Generator} (h : f.get? ref = some g) :
    f.update ref g = f := by
  obtain ⟨members⟩ := f
  obtain ⟨hlt, hg⟩ := Array.getElem?_eq_some_iff.mp h
  simp only [update, mk.injEq]
  rw [Array.setIfInBounds, dif_pos hlt, ← hg, Array.set_getElem_self]

theorem get?_call (f : Fleet) (ref other : Ref) (supply : List Reading) :
    (f.call ref supply).2.get? other =
      if other = ref then (f.get? ref).map fun g => (g.call supply).2 else f.get? other := by
  cases hg : f.get? ref with
  | none =>
    have hcall : (f.call ref supply).2 = f := by simp only [call, hg]
    rw [hcall]
    split
    · rename_i he
      rw [he, hg]
      rfl
    · rfl
  | some g =>
    rw [call_of_get? hg, get?_update, hg]
    simp only [Option.map_some]

/-! ## What stays -/

/-- Every generator of `f` is in `f'`, with the settings that it had. -/
def Keeps (f f' : Fleet) : Prop :=
  ∀ ref g, f.get? ref = some g → ∃ g', f'.get? ref = some g' ∧ g'.settings = g.settings

theorem Keeps.refl (f : Fleet) : f.Keeps f := fun _ g h => ⟨g, h, rfl⟩

theorem Keeps.trans {f f' f'' : Fleet} (h : f.Keeps f') (h' : f'.Keeps f'') : f.Keeps f'' := by
  intro ref g hg
  obtain ⟨g', hg', hs⟩ := h ref g hg
  obtain ⟨g'', hg'', hs'⟩ := h' ref g' hg'
  exact ⟨g'', hg'', hs'.trans hs⟩

theorem keeps_add (f : Fleet) (g : Generator) : f.Keeps (f.add g).2 := by
  intro ref g' hg'
  refine ⟨g', ?_, rfl⟩
  rw [get?_add, if_neg, hg']
  rintro rfl
  simp [add, get?] at hg'

theorem keeps_call (f : Fleet) (called : Ref) (supply : List Reading) :
    f.Keeps (f.call called supply).2 := by
  intro ref g hg
  rw [get?_call]
  split
  · rename_i he
    rw [← he, hg]
    exact ⟨_, rfl, Generator.settings_call g supply⟩
  · exact ⟨g, hg, rfl⟩

/-- A call adds no generator either. -/
theorem call_keeps (f : Fleet) (called : Ref) (supply : List Reading) :
    (f.call called supply).2.Keeps f := by
  intro ref g hg
  rw [get?_call] at hg
  split at hg
  · rename_i he
    obtain ⟨g₀, hg₀, rfl⟩ := Option.map_eq_some_iff.mp hg
    exact ⟨g₀, by rw [he, hg₀], (Generator.settings_call g₀ supply).symm⟩
  · exact ⟨g, hg, rfl⟩

theorem size_call (f : Fleet) (ref : Ref) (supply : List Reading) :
    (f.call ref supply).2.members.size = f.members.size := by
  cases hg : f.get? ref with
  | none => simp only [call, hg]
  | some g => simp only [call, hg, update, Array.size_setIfInBounds]

theorem size_draw (f : Fleet) (ref : Ref) (supply : List Reading) (n : Nat) :
    (f.draw ref supply n).2.members.size = f.members.size := by
  cases hg : f.get? ref with
  | none => simp only [draw, hg]
  | some g => simp only [draw, hg, update, Array.size_setIfInBounds]

/-- It makes no difference to a call whether a generator joins before or after it. -/
theorem call_add {f : Fleet} {ref : Ref} {g : Generator} (h : f.get? ref = some g)
    (joins : Generator) (supply : List Reading) :
    (f.add joins).2.call ref supply =
      ((f.call ref supply).1, ((f.call ref supply).2.add joins).2) := by
  have hlt : ref < f.members.size := (Array.getElem?_eq_some_iff.mp h).1
  have hne : ref ≠ (f.add joins).1 := Nat.ne_of_lt hlt
  have hadd : (f.add joins).2.get? ref = some g := by rw [get?_add, if_neg hne, h]
  rw [call_of_get? hadd, call_of_get? h]
  simp only [add, update, Array.setIfInBounds, Array.size_push, hlt, Nat.lt_succ_of_lt hlt,
    dif_pos, Array.set_push]

end Fleet
end IdMint

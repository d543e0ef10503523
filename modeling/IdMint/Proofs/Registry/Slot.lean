import IdMint.Mint.Basic
import IdMint.Proofs.Fleet.Calls

/-!
# The slot

What a registry means to those who use it, without its two cells: a *slot* that is empty or holds a
generator. One puts a generator into it, looks at it, or looks a generator up in it; the look-up of
an empty slot puts the fallback there. All three happen at once here (`SlotCall.answer`), and this
is the object that callers who overlap are measured against (`Linearizable`).

The fallback is made late, but which ref it will get is settled from the start, since nothing else
is added to the fleet of a registry while it is in use. `Registry.fallbackRef` is that ref, and it
is a fixed parameter of the slot.
-/

namespace IdMint

/-! ## The fallback -/

namespace Registry

/-- The ref of the fallback: the one that it has, or the one that it will get. -/
def fallbackRef (r : Registry) : Fleet.Ref := r.takeFallback.1

/-- The registry once its fallback is made. -/
def withFallback (r : Registry) : Registry := r.takeFallback.2.2

@[simp] theorem installed?_withFallback (r : Registry) :
    r.withFallback.installed? = r.installed? := by
  obtain ⟨fleet, installed?, _ | ref⟩ := r <;> rfl

@[simp] theorem fallback?_withFallback (r : Registry) :
    r.withFallback.fallback? = some r.fallbackRef := by
  obtain ⟨fleet, installed?, _ | ref⟩ := r <;> rfl

theorem withFallback_of_some {r : Registry} {ref : Fleet.Ref} (h : r.fallback? = some ref) :
    r.withFallback = r := by
  simp only [withFallback, takeFallback, h]

theorem fallbackRef_of_some {r : Registry} {ref : Fleet.Ref} (h : r.fallback? = some ref) :
    r.fallbackRef = ref := by
  simp only [fallbackRef, takeFallback, h]

theorem fleet_withFallback_of_none {r : Registry} (h : r.fallback? = none) :
    r.withFallback.fleet = (r.fleet.add { settings := {} }).2 := by
  simp only [withFallback, takeFallback, h]

@[simp] theorem withFallback_withFallback (r : Registry) :
    r.withFallback.withFallback = r.withFallback :=
  withFallback_of_some r.fallback?_withFallback

@[simp] theorem fallbackRef_withFallback (r : Registry) :
    r.withFallback.fallbackRef = r.fallbackRef :=
  fallbackRef_of_some r.fallback?_withFallback

@[simp] theorem fallbackRef_install (r : Registry) (ref : Fleet.Ref) :
    (r.install ref).fallbackRef = r.fallbackRef := by
  obtain ⟨fleet, installed?, _ | fallback⟩ := r <;> rfl

@[simp] theorem fleet_withFallback_install (r : Registry) (ref : Fleet.Ref) :
    (r.install ref).withFallback.fleet = r.withFallback.fleet := by
  obtain ⟨fleet, installed?, _ | fallback⟩ := r <;> rfl

@[simp] theorem fallbackRef_call (r : Registry) (ref : Fleet.Ref) (supply : List Reading) :
    { r with fleet := (r.fleet.call ref supply).2 }.fallbackRef = r.fallbackRef := by
  obtain ⟨fleet, installed?, _ | fallback⟩ := r
  · exact fleet.size_call ref supply
  · rfl

/-- A generator of the registry may be called before the fallback is made or after. -/
theorem withFallback_call {r : Registry} {ref : Fleet.Ref} {g : Generator}
    (h : r.fleet.get? ref = some g) (supply : List Reading) :
    r.withFallback.fleet.call ref supply = ((r.fleet.call ref supply).1,
      { r with fleet := (r.fleet.call ref supply).2 }.withFallback.fleet) := by
  obtain ⟨fleet, installed?, _ | fallback⟩ := r
  · exact Fleet.call_add h { settings := {} } supply
  · rfl

theorem keeps_withFallback (r : Registry) : r.fleet.Keeps r.withFallback.fleet := by
  obtain ⟨fleet, installed?, _ | fallback⟩ := r
  · exact fleet.keeps_add _
  · exact .refl fleet

theorem get?_withFallback {r : Registry} {ref : Fleet.Ref} {g : Generator}
    (h : r.withFallback.fleet.get? ref = some g) :
    r.fleet.get? ref = some g ∨ ref = r.fallbackRef ∧ g = { settings := {} } := by
  obtain ⟨fleet, installed?, _ | fallback⟩ := r
  · rw [fleet_withFallback_of_none rfl, Fleet.get?_add] at h
    split at h
    · rename_i he
      exact .inr ⟨he, (Option.some.inj h).symm⟩
    · exact .inl h
  · exact .inl h

end Registry

/-! ## The sequential object -/

/-- What one may do to a slot. -/
inductive SlotCall where
  | put (ref : Fleet.Ref)
  | look
  | lookUp
  deriving DecidableEq, Repr

namespace SlotCall

/-- The answer of a slot to a call, and what is in it afterwards. -/
def answer (fallback : Fleet.Ref) (slot : Option Fleet.Ref) :
    SlotCall → Response × Option Fleet.Ref
  | put ref => (.done, some ref)
  | look => (.current slot, slot)
  | lookUp => (.generator (slot.getD fallback), some (slot.getD fallback))

/-- The generator that a call puts into the slot, whatever is there. -/
def put? : SlotCall → Option Fleet.Ref
  | put ref => some ref
  | look | lookUp => none

end SlotCall

/-- Whether an answer hands a generator to the caller. -/
def Response.HandsOver (response : Response) (ref : Fleet.Ref) : Prop :=
  response = .generator ref ∨ response = .current (some ref)

namespace SlotCall

variable {fallback ref : Fleet.Ref} {slot : Option Fleet.Ref} {call : SlotCall}

/-- A call that puts nothing does not change what a look-up finds, and hands over nothing else. -/
theorem getD_answer (h : call.put? = none) :
    (call.answer fallback slot).2.getD fallback = slot.getD fallback := by
  cases call with
  | put ref => exact nomatch h
  | look => rfl
  | lookUp => rfl

theorem eq_getD_of_handsOver (h : (call.answer fallback slot).1.HandsOver ref) :
    ref = slot.getD fallback := by
  cases call with
  | put ref => rcases h with h | h <;> exact nomatch h
  | look =>
    rcases h with h | h
    · exact nomatch h
    · simp only [answer, Response.current.injEq] at h
      rw [h, Option.getD_some]
  | lookUp =>
    rcases h with h | h
    · exact (Response.generator.inj h).symm
    · exact nomatch h

theorem answer_some (call : SlotCall) :
    (call.answer fallback (some ref)).2 = some (call.put?.getD ref) := by
  cases call <;> rfl

end SlotCall

/-! ## Calls that overlap -/

/-- A call as its caller saw it: what was asked and answered, and the times between which. -/
structure RegistryCall where
  caller : Nat
  call : SlotCall
  response : Response
  started : Nat
  ended : Nat
  deriving DecidableEq, Repr

/-- The calls, made one after the other on a slot, answer as they did and leave `slot'` behind. -/
def Replays (fallback : Fleet.Ref) :
    Option Fleet.Ref → List RegistryCall → Option Fleet.Ref → Prop
  | slot, [], slot' => slot' = slot
  | slot, k :: rest, slot' =>
    k.response = (k.call.answer fallback slot).1 ∧
      Replays fallback (k.call.answer fallback slot).2 rest slot'

/-- Calls that overlap are *linearizable* if each can be given one instant, not before it started
and not after it ended, so that the calls in the order of their instants replay on the slot. -/
def Linearizable (fallback : Fleet.Ref) (slot : Option Fleet.Ref) (calls : List RegistryCall)
    (slot' : Option Fleet.Ref) : Prop :=
  ∃ history : List (Nat × RegistryCall),
    (history.map Prod.snd).Perm calls ∧ history.Pairwise (fun j k => j.1 < k.1) ∧
      (∀ k ∈ history, k.2.started ≤ k.1 ∧ k.1 ≤ k.2.ended) ∧
      Replays fallback slot (history.map Prod.snd) slot'

namespace Replays

variable {fallback : Fleet.Ref}

/-- Calls that replay in the order in which they ended are linearizable, each at its end. -/
theorem linearizable {slot slot' : Option Fleet.Ref} {calls : List RegistryCall}
    (h : Replays fallback slot calls slot') (ordered : calls.Pairwise fun j k => j.ended < k.ended)
    (started : ∀ k ∈ calls, k.started ≤ k.ended) : Linearizable fallback slot calls slot' := by
  have hmap : (calls.map fun k => (k.ended, k)).map Prod.snd = calls := by
    rw [List.map_map]
    exact List.map_id _
  refine ⟨calls.map fun k => (k.ended, k), ?_, List.pairwise_map.mpr ordered, ?_, ?_⟩
  · rw [hmap]
  · intro k hk
    obtain ⟨j, hj, rfl⟩ := List.mem_map.mp hk
    exact ⟨started j hj, Nat.le_refl _⟩
  · rw [hmap]
    exact h

theorem append : ∀ {calls calls' : List RegistryCall} {slot slot' slot'' : Option Fleet.Ref},
    Replays fallback slot calls slot' → Replays fallback slot' calls' slot'' →
      Replays fallback slot (calls ++ calls') slot''
  | [], _, _, _, _, rfl, h' => h'
  | _ :: _, _, _, _, _, ⟨hk, h⟩, h' => ⟨hk, h.append h'⟩

/-- Once there is a generator in the slot, only one that is put there takes its place. -/
theorem slot_eq : ∀ {calls : List RegistryCall} {ref : Fleet.Ref} {slot' : Option Fleet.Ref},
    Replays fallback (some ref) calls slot' →
      slot' = some ((calls.filterMap (·.call.put?)).getLast?.getD ref)
  | [], _, _, h => h
  | k :: rest, ref, slot', ⟨_, h⟩ => by
    rw [SlotCall.answer_some] at h
    rw [slot_eq h, List.filterMap_cons]
    cases k.call.put? with
    | none => rfl
    | some put => rw [Option.getD_some, List.getLast?_cons, Option.getD_some]

/-- A generator that is handed over is the fallback, was in the slot, or was put there before. -/
theorem origin {ref : Fleet.Ref} {k : RegistryCall} {after : List RegistryCall}
    (hk : k.response.HandsOver ref) :
    ∀ {before : List RegistryCall} {slot slot' : Option Fleet.Ref},
      Replays fallback slot (before ++ k :: after) slot' →
        ref = fallback ∨ slot = some ref ∨ ∃ p ∈ before, p.call = .put ref
  | [], slot, _, ⟨h, _⟩ => by
    rw [h] at hk
    cases slot with
    | none => exact .inl (SlotCall.eq_getD_of_handsOver hk)
    | some found => exact .inr (.inl (by rw [SlotCall.eq_getD_of_handsOver hk, Option.getD_some]))
  | p :: before, slot, _, ⟨_, h⟩ => by
    rcases origin hk h with hf | hs | ⟨q, hq, hput⟩
    · exact .inl hf
    · -- It was in the slot after `p`, so `p` has put it there, or left it, or was given it.
      cases hc : p.call with
      | put put =>
        rw [hc] at hs
        cases hs
        exact .inr (.inr ⟨p, List.mem_cons_self, hc⟩)
      | look =>
        rw [hc] at hs
        exact .inr (.inl hs)
      | lookUp =>
        rw [hc] at hs
        cases slot with
        | none => exact .inl (Option.some.inj hs).symm
        | some found => exact .inr (.inl hs)
    · exact .inr (.inr ⟨q, List.mem_cons_of_mem _ hq, hput⟩)

/-- As long as nothing is put into the slot, one generator is all that is handed over. -/
theorem eq_getD_of_handsOver {ref : Fleet.Ref} {k : RegistryCall} (hk : k.response.HandsOver ref) :
    ∀ {calls : List RegistryCall} {slot slot' : Option Fleet.Ref},
      Replays fallback slot calls slot' → (∀ j ∈ calls, j.call.put? = none) → k ∈ calls →
        ref = slot.getD fallback
  | [], _, _, _, _, hmem => absurd hmem List.not_mem_nil
  | j :: rest, slot, slot', ⟨hj, h⟩, hput, hmem => by
    rcases List.mem_cons.mp hmem with rfl | hrest
    · rw [hj] at hk
      exact SlotCall.eq_getD_of_handsOver hk
    · rw [← SlotCall.getD_answer (hput j List.mem_cons_self)]
      exact eq_getD_of_handsOver hk h (fun i hi => hput i (List.mem_cons_of_mem _ hi)) hrest

end Replays
end IdMint

import IdMint.Proofs.Mint.Actions
import IdMint.Proofs.ObjectId.Source

/-!
# Object ids under callers that overlap

A request for an object id is one action, and it is the only one that touches the source of the
mint (`Mint.serves_act`). So however callers overlap, the object ids that they were given are
those of one list of calls on the source, in the order in which the requests were answered
(`Crowd.objectIds_run`), and all that is known of such a list is known of them.
-/

namespace IdMint

/-- The object id, in its text, that an outcome is the answer to a request for. -/
def Request.objectId? : Request → Except Failure Response → Option String
  | .identifier .objectId, .ok (.text text) => some text
  | _, _ => none

def Step.objectId? (request : Request) : Step → Option String
  | .later _ _ => none
  | .over report => request.objectId? report.outcome

theorem Step.objectId?_of_ne {request : Request} (h : request ≠ .identifier .objectId)
    (step : Step) : step.objectId? request = none := by
  rcases step with ⟨lookup, events⟩ | ⟨report⟩
  · rfl
  · cases request with
    | identifier kind =>
      cases kind with
      | objectId => exact absurd rfl h
      | _ => rfl
    | _ => rfl

def Completion.objectId? (k : Completion) : Option String :=
  k.request.objectId? k.report.outcome

/-- The second in which an object id is made that is asked for with these readings. -/
def Move.secs? (move : Move) : Option UInt32 :=
  match move.supply with
  | .time ms :: _ => some (ObjectId.seconds ms)
  | _ => none

/-- What one action can be to a source: nothing, or one call on it, in a second that was read. -/
inductive ObjectId.Source.Serves (s : Source) (secs? : Option UInt32) :
    Option String → Source → Prop
  | aside : Serves s secs? none s
  | minted {secs : UInt32} : secs? = some secs →
      Serves s secs? (some (s.mint secs).1.hex) (s.mint secs).2

/-! ## One action -/

namespace Mint

theorem objectIds_withGenerator (m : Mint) (request : Request) (ref : Fleet.Ref)
    (supply : List Reading) : (m.withGenerator request ref supply).2.objectIds = m.objectIds := by
  cases request <;> rfl

theorem objectIds_install (m : Mint) (ref : Fleet.Ref) :
    (m.install ref).2.objectIds = m.objectIds := by
  unfold install
  split <;> rfl

theorem objectIds_token (m : Mint) (length : Nat) : (m.token length).2.objectIds = m.objectIds :=
  rfl

theorem objectIds_perform (m : Mint) {request : Request} (h : request ≠ .identifier .objectId)
    (supply : List Reading) : (m.perform request supply).2.objectIds = m.objectIds := by
  cases request with
  | install ref => exact m.objectIds_install ref
  | current => rfl
  | hasFallback => rfl
  | nextOf ref => rfl
  | generator => rfl
  | next => rfl
  | identifier kind =>
    cases kind with
    | snowflake => rfl
    | random =>
      have ht := m.objectIds_token IdKind.randomLength
      unfold perform
      -- As for the registry, the token is kept closed.
      generalize m.token IdKind.randomLength = drawn at ht ⊢
      exact ht
    | objectId => exact absurd rfl h

theorem objectIds_act (m : Mint) {request : Request} (h : request ≠ .identifier .objectId)
    (lookup : Lookup) (supply : List Reading) :
    (m.act request lookup supply).2.objectIds = m.objectIds := by
  by_cases hreq : request.looksUp = true
  · unfold act
    rw [if_pos hreq]
    cases lookup with
    | found ref => exact m.objectIds_withGenerator request ref supply
    | _ =>
      dsimp only
      split <;> rfl
  · rw [m.act_of_perform (Bool.eq_false_iff.mpr hreq)]
    exact m.objectIds_perform h supply

/-- **An action leaves the source alone, or it is one call on it** that answers a request for an
object id. -/
theorem serves_act (m : Mint) (request : Request) (lookup : Lookup) (move : Move) :
    m.objectIds.Serves move.secs? ((m.act request lookup move.supply).1.objectId? request)
      (m.act request lookup move.supply).2.objectIds := by
  by_cases h : request = .identifier .objectId
  · subst h
    rw [m.act_of_perform rfl]
    obtain ⟨caller, supply⟩ := move
    match supply with
    | [] => exact .aside
    | .fault f :: _ => exact .aside
    | .time ms :: _ => exact .minted rfl
  · rw [Step.objectId?_of_ne h, m.objectIds_act h]
    exact .aside

end Mint

/-! ## Schedules -/

namespace Crowd

theorem serves_step (c : Crowd) (time : Nat) (move : Move) :
    c.mint.objectIds.Serves move.secs? ((c.step time move).1.bind Completion.objectId?)
      (c.step time move).2.mint.objectIds := by
  rcases c.step_cases time move with ⟨-, hs⟩ | ⟨a, todo, lookup, events, mint, -, hact, hs⟩ |
    ⟨a, todo, report, mint, -, hact, hs⟩
  · rw [hs]
    exact .aside
  · have hserves := c.mint.serves_act a.request a.lookup move
    rw [hact] at hserves
    rw [hs]
    exact hserves
  · have hserves := c.mint.serves_act a.request a.lookup move
    rw [hact] at hserves
    rw [hs]
    exact hserves

/-- **The object ids of a schedule are those of one list of calls** in seconds that were read. -/
theorem objectIds_run (c : Crowd) (time : Nat) (moves : List Move) :
    ∃ calls, calls.Sublist (moves.filterMap Move.secs?) ∧
      (c.run time moves).1.filterMap Completion.objectId? =
        (c.mint.objectIds.mintAll calls).1.map ObjectId.hex ∧
      (c.run time moves).2.mint.objectIds = (c.mint.objectIds.mintAll calls).2 := by
  induction moves generalizing c time with
  | nil => exact ⟨[], .slnil, rfl, rfl⟩
  | cons move rest ih =>
    obtain ⟨calls, hcalls, hids, hsource⟩ := ih (c.step time move).2 (time + 1)
    have hserves := c.serves_step time move
    have hhead : (c.step time move).1.toList.filterMap Completion.objectId? =
        ((c.step time move).1.bind Completion.objectId?).toList := by
      cases (c.step time move).1 with
      | none => rfl
      | some k => cases h : k.objectId? <;> simp [h]
    rw [run_cons, List.filterMap_append, hhead, hids, hsource]
    generalize (c.step time move).1.bind Completion.objectId? = text?,
      (c.step time move).2.mint.objectIds = source at hserves ⊢
    cases hserves with
    | aside =>
      exact ⟨calls, hcalls.trans ((List.sublist_cons_self move rest).filterMap _), rfl, rfl⟩
    | minted hsecs =>
      refine ⟨_ :: calls, ?_, rfl, rfl⟩
      rw [List.filterMap_cons_some hsecs]
      exact hcalls.cons_cons _

/-- **Every object id shows its second, its process, and its number around the circle of
counters**, so that no two within one circle are the same. This is so of the ids of any calls on any
source, and of the ids that callers who overlap are given. -/
theorem objectIds_numbered (s : ObjectId.Source) (calls : List UInt32) (c : Crowd) (time : Nat)
    (moves : List Move) :
    s.Numbered calls (s.mintAll calls).1 ∧
      ∃ answered ids, answered.Sublist (moves.filterMap Move.secs?) ∧
        c.mint.objectIds.Numbered answered ids ∧
        (c.run time moves).1.filterMap Completion.objectId? = ids.map ObjectId.hex := by
  obtain ⟨answered, hsub, hids, -⟩ := c.objectIds_run time moves
  exact ⟨s.numbered_mintAll calls, answered, _, hsub, ObjectId.Source.numbered_mintAll _ _, hids⟩

end Crowd
end IdMint

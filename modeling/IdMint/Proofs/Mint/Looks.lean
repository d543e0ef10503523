import IdMint.Proofs.Mint.Fallback

/-!
# Requests that only look

Some requests do nothing to generators: to see the installed one, to ask whether there is a
fallback, and those for random tokens and object ids. However many of them are put in, anywhere in
the programs of any callers, nothing else is answered otherwise.

This is said of two runs. In the first, some of these requests are marked as put in (`Extras`), and
in the second they are missing, with the entries of the schedule at which they were carried out
(`Crowd.ownMoves`). All other entries are the same, with the same readings of the clock. The second
run ends with the same registry, and what ends in it are the requests that are not marked, with the
same reports. Only tokens and object ids may differ, which are drawn from sources of their own, and
so do the times at which things happen, since entries are missing.
-/

namespace IdMint

/-! ## Marked requests -/

namespace Request

/-- Requests that do nothing to generators. -/
def onlyLooks : Request → Bool
  | current | hasFallback | identifier .random | identifier .objectId => true
  | _ => false

/-- Requests whose answers come from sources that have nothing to do with generators. -/
def ofChance : Request → Bool
  | identifier .random | identifier .objectId => true
  | _ => false

/-- The requests of a caller without those that are marked as put in. A mark is put on the place of
a request, counted from the end. -/
def own (extra : Nat → Bool) : List Request → List Request
  | [] => []
  | request :: rest =>
    if request.onlyLooks && extra rest.length then own extra rest else request :: own extra rest

end Request

/-- Which places are marked, for each caller. -/
abbrev Extras := Nat → Nat → Bool

/-- A request under way, no matter when it began. -/
def Activity.undated (a : Activity) : Activity := { a with started := 0 }

namespace Caller

/-- Whether what a caller does next is a request that was put in. -/
def slips (extra : Nat → Bool) (c : Caller) : Bool :=
  match c.doing?, c.todo with
  | none, request :: rest => request.onlyLooks && extra rest.length
  | _, _ => false

/-- A caller without the requests that were put in, no matter when it began the one under way. -/
def own (extra : Nat → Bool) (c : Caller) : Caller where
  todo := Request.own extra c.todo
  doing? := c.doing?.map Activity.undated

def undated (c : Caller) : Caller := { c with doing? := c.doing?.map Activity.undated }

end Caller

/-- What a completed request shows of the generators, no matter when. -/
def Completion.said (k : Completion) : Nat × Request × Option (Report Response) :=
  (k.caller, k.request, if k.request.ofChance then none else some k.report)

namespace Crowd

/-- Whether an entry of a schedule carries out a request that was put in. -/
def slips (extras : Extras) (c : Crowd) (move : Move) : Bool :=
  (c.callers[move.caller]?).any fun caller => caller.slips (extras move.caller)

/-- The entries of a schedule that do not carry out requests that were put in. -/
def ownMoves (extras : Extras) (c : Crowd) (time : Nat) : List Move → List Move
  | [] => []
  | move :: rest =>
    (if c.slips extras move then [] else [move]) ++
      (c.step time move).2.ownMoves extras (time + 1) rest

/-- The requests that are over at the end of a schedule, without those that were put in. -/
def ownEnded (extras : Extras) (c : Crowd) (time : Nat) : List Move → List Completion
  | [] => []
  | move :: rest =>
    (if c.slips extras move then [] else (c.step time move).1.toList) ++
      (c.step time move).2.ownEnded extras (time + 1) rest

end Crowd

/-! ## One action -/

/-- Two outcomes of an action that are the same, but for what a request has drawn from a source that
has nothing to do with generators. -/
inductive Step.Alike (request : Request) : Step → Step → Prop where
  | later (lookup : Lookup) (events : List Event) :
    Alike request (.later lookup events) (.later lookup events)
  | ended {report report' : Report Response} (h : request.ofChance = false → report' = report) :
    Alike request (.over report) (.over report')

theorem Step.Alike.ofEq {request : Request} {s s' : Step} (h : s' = s) : s.Alike request s' := by
  subst h
  rcases s' with ⟨lookup, events⟩ | report
  · exact .later lookup events
  · exact .ended fun _ => rfl

namespace Mint

/-- A request that looks up sees and changes nothing but the registry. -/
theorem act_congr_of_looksUp {m n : Mint} (h : n.registry = m.registry) {request : Request}
    (hreq : request.looksUp = true) (lookup : Lookup) (supply : List Reading) :
    (n.act request lookup supply).2.registry = (m.act request lookup supply).2.registry ∧
      (n.act request lookup supply).1 = (m.act request lookup supply).1 := by
  obtain ⟨registry, objectIds, dice⟩ := m
  obtain ⟨_, objectIds', dice'⟩ := n
  obtain rfl := h
  unfold act
  rw [if_pos hreq, if_pos hreq]
  cases lookup with
  | found ref => cases request <;> exact ⟨rfl, rfl⟩
  | loading | taking | offering =>
    simp only
    generalize Lookup.advance _ _ = advanced
    obtain ⟨lookup', events, registry'⟩ := advanced
    cases request <;> cases lookup' <;> exact ⟨rfl, rfl⟩

/-- An action sees and changes nothing but the registry, unless it draws from another source. -/
theorem act_congr {m n : Mint} (h : n.registry = m.registry) (request : Request) (lookup : Lookup)
    (supply : List Reading) :
    (n.act request lookup supply).2.registry = (m.act request lookup supply).2.registry ∧
      (m.act request lookup supply).1.Alike request (n.act request lookup supply).1 := by
  cases hreq : request.looksUp with
  | true =>
    obtain ⟨hregistry, hstep⟩ := act_congr_of_looksUp h hreq lookup supply
    exact ⟨hregistry, .ofEq hstep⟩
  | false =>
    rw [m.act_of_perform hreq, n.act_of_perform hreq]
    cases request with
    | install ref =>
      simp only [perform, install, h]
      cases m.registry.fleet.get? ref with
      | none => exact ⟨h, .ofEq rfl⟩
      | some g => exact ⟨rfl, .ofEq rfl⟩
    | current =>
      simp only [perform, h]
      exact ⟨trivial, .ofEq rfl⟩
    | hasFallback =>
      simp only [perform, h]
      exact ⟨trivial, .ofEq rfl⟩
    | nextOf ref =>
      simp only [perform, callOn, h]
      exact ⟨trivial, .ofEq rfl⟩
    | identifier kind =>
      have haside : (Request.identifier kind).Aside ∧ (Request.identifier kind).ofChance = true := by
        cases kind with
        | snowflake => exact nomatch hreq
        | random | objectId => exact ⟨trivial, rfl⟩
      rw [m.registry_perform haside.1, n.registry_perform haside.1]
      exact ⟨h, .ended fun hno => nomatch haside.2.symm.trans hno⟩
    | generator | next => exact nomatch hreq

/-- A request that only looks is one action, and leaves the registry as it is. -/
theorem act_of_onlyLooks (m : Mint) {request : Request} (h : request.onlyLooks = true)
    (lookup : Lookup) (supply : List Reading) :
    ∃ report m', m.act request lookup supply = (.over report, m') ∧ m'.registry = m.registry := by
  cases request with
  | current => exact ⟨_, m, rfl, rfl⟩
  | hasFallback => exact ⟨_, m, rfl, rfl⟩
  | identifier kind =>
    have haside : (Request.identifier kind).Aside := by
      cases kind with
      | snowflake => exact nomatch h
      | random | objectId => trivial
    exact ⟨_, _, m.act_of_perform (Request.looksUp_of_aside haside) lookup supply,
      m.registry_perform haside supply⟩
  | install | generator | next | nextOf => exact nomatch h

end Mint

/-! ## Two crowds -/

namespace Crowd

/-- A crowd `d` is where a crowd `c` is, but for the requests that were put in. -/
structure Own (extras : Extras) (c d : Crowd) : Prop where
  registry : d.mint.registry = c.mint.registry
  callers : ∀ i, (d.callers[i]?).map Caller.undated =
    (c.callers[i]?).map (Caller.own (extras i))

theorem own_fresh (extras : Extras) (mint : Mint) (todos : Array (List Request)) :
    Own extras (fresh mint todos)
      (fresh mint (todos.mapIdx fun i todo => Request.own (extras i) todo)) := by
  refine ⟨rfl, ?_⟩
  intro i
  simp only [fresh, Array.getElem?_map, Array.getElem?_mapIdx, Option.map_map]
  rfl

/-- What slips is the next request of a caller who is doing nothing. -/
theorem caller_of_slips {extras : Extras} {c : Crowd} {move : Move}
    (h : c.slips extras move = true) :
    ∃ request rest, c.callers[move.caller]? = some { todo := request :: rest } ∧
      request.onlyLooks = true ∧ extras move.caller rest.length = true := by
  unfold slips at h
  cases hc : c.callers[move.caller]? with
  | none =>
    rw [hc] at h
    exact nomatch h
  | some caller =>
    rw [hc, Option.any_some] at h
    obtain ⟨todo, doing?⟩ := caller
    cases doing? with
    | some a => exact nomatch h
    | none =>
      cases todo with
      | nil => exact nomatch h
      | cons request rest =>
        obtain ⟨hlooks, hextra⟩ := Bool.and_eq_true_iff.mp h
        exact ⟨request, rest, rfl, hlooks, hextra⟩

namespace Own

variable {extras : Extras} {c d : Crowd}

/-- A caller who does not slip does in both crowds the same, and has left what it has left but for
the requests that were put in. -/
theorem acting? (h : Own extras c d) {move : Move} (hslips : c.slips extras move = false)
    (time time' : Nat) :
    (d.acting? time' move).map (fun (a, todo) => (a.undated, todo)) =
      (c.acting? time move).map fun (a, todo) =>
        (a.undated, Request.own (extras move.caller) todo) := by
  have hcallers := h.callers move.caller
  unfold Crowd.slips at hslips
  unfold Crowd.acting?
  cases hc : c.callers[move.caller]? with
  | none =>
    rw [hc, Option.map_none, Option.map_eq_none_iff] at hcallers
    rw [hcallers]
    rfl
  | some caller =>
    rw [hc, Option.map_some, Option.map_eq_some_iff] at hcallers
    obtain ⟨caller', hd, hsame⟩ := hcallers
    rw [hc, Option.any_some] at hslips
    rw [hd, Option.bind_some, Option.bind_some]
    obtain ⟨todo, doing?⟩ := caller
    obtain ⟨todo', doing?'⟩ := caller'
    simp only [Caller.undated, Caller.own, Caller.mk.injEq] at hsame
    obtain ⟨rfl, hdoing⟩ := hsame
    cases doing? with
    | some a =>
      rw [Option.map_some, Option.map_eq_some_iff] at hdoing
      obtain ⟨a', rfl, ha⟩ := hdoing
      simp only [Caller.pick, Option.map_some, ha]
    | none =>
      rw [Option.map_none, Option.map_eq_none_iff] at hdoing
      subst hdoing
      cases todo with
      | nil => rfl
      | cons request rest =>
        simp only [Caller.slips] at hslips
        simp only [Caller.pick, Request.own, hslips, Bool.false_eq_true, if_false, Option.map_some]
        rfl

/-- The crowds stay together when a caller is left with the same in both. -/
theorem after (h : Own extras c d) {caller : Nat} {todo todo' : List Request}
    {doing? doing?' : Option Activity} {mint mint' : Mint}
    (hregistry : mint'.registry = mint.registry)
    (hcaller : Caller.undated { todo := todo', doing? := doing?' } =
      Caller.own (extras caller) { todo, doing? }) :
    Own extras (c.after caller todo doing? mint) (d.after caller todo' doing?' mint') := by
  refine ⟨hregistry, ?_⟩
  intro i
  have hsize : caller < d.callers.size ↔ caller < c.callers.size := by
    have hsome := congrArg Option.isSome (h.callers caller)
    rw [Option.isSome_map, Option.isSome_map, Bool.eq_iff_iff] at hsome
    simpa using hsome
  simp only [Crowd.after, Array.getElem?_setIfInBounds]
  by_cases hi : caller = i
  · subst hi
    by_cases hlt : caller < c.callers.size
    · simp only [if_true, hlt, hsize.mpr hlt, Option.map_some, hcaller]
    · simp only [if_true, hlt, mt hsize.mp hlt, if_false, Option.map_none]
  · simp only [if_neg hi]
    exact h.callers i

/-- **Step of a request that was put in.** Only one of the crowds takes it, and all is as before. -/
theorem step_of_slips (h : Own extras c d) {move : Move} (hslips : c.slips extras move = true)
    (time : Nat) : Own extras (c.step time move).2 d := by
  obtain ⟨request, rest, hc, hlooks, hextra⟩ := caller_of_slips hslips
  obtain ⟨report, mint, hact, hmint⟩ := c.mint.act_of_onlyLooks hlooks .loading move.supply
  have hp : c.acting? time move =
      some ({ request, lookup := .loading, events := [], started := time }, rest) := by
    rw [Crowd.acting?, hc]
    rfl
  rw [step_of_over hp hact]
  refine ⟨h.registry.trans hmint.symm, ?_⟩
  intro i
  rw [h.callers i]
  simp only [Crowd.after, Array.getElem?_setIfInBounds]
  by_cases hi : move.caller = i
  · subst hi
    have hlt := (Array.getElem?_eq_some_iff.mp hc).1
    simp only [if_true, hlt, hc, Option.map_some, Caller.own, Request.own, hlooks, hextra,
      Bool.and_self]
  · simp only [if_neg hi]

/-- **Step of any other request.** Both crowds take it, and it goes on or ends alike. -/
theorem step (h : Own extras c d) {move : Move} (hslips : c.slips extras move = false)
    (time time' : Nat) :
    Own extras (c.step time move).2 (d.step time' move).2 ∧
      (d.step time' move).1.map Completion.said = (c.step time move).1.map Completion.said := by
  have hacting := h.acting? hslips time time'
  cases hp : c.acting? time move with
  | none =>
    rw [hp, Option.map_none, Option.map_eq_none_iff] at hacting
    rw [step_of_idle hp, step_of_idle hacting]
    exact ⟨h, rfl⟩
  | some picked =>
    obtain ⟨a, todo⟩ := picked
    rw [hp, Option.map_some, Option.map_eq_some_iff] at hacting
    obtain ⟨⟨⟨request, lookup, events, started⟩, todo'⟩, hp', hsame⟩ := hacting
    obtain ⟨_, _, _, started'⟩ := a
    simp only [Activity.undated, Prod.mk.injEq, Activity.mk.injEq, and_true] at hsame
    obtain ⟨⟨rfl, rfl, rfl⟩, rfl⟩ := hsame
    obtain ⟨hregistry, halike⟩ := Mint.act_congr h.registry request lookup move.supply
    rcases hact : c.mint.act request lookup move.supply with ⟨s, mint⟩
    rcases hact' : d.mint.act request lookup move.supply with ⟨s', mint'⟩
    rw [hact, hact'] at halike hregistry
    cases halike with
    | later lookup' more =>
      rw [step_of_later hp hact, step_of_later hp' hact']
      exact ⟨h.after hregistry rfl, rfl⟩
    | ended hreport =>
      rw [step_of_over hp hact, step_of_over hp' hact']
      refine ⟨h.after hregistry rfl, ?_⟩
      cases hchance : request.ofChance with
      | true => simp only [Option.map_some, Completion.said, hchance, if_true]
      | false => simp only [Option.map_some, Completion.said, hreport hchance]

/-- **Run.** The induction is on the schedule of the crowd that takes all requests. -/
theorem run : ∀ {c d : Crowd} (time time' : Nat) (moves : List Move), Own extras c d →
    Own extras (c.run time moves).2 (d.run time' (c.ownMoves extras time moves)).2 ∧
      (d.run time' (c.ownMoves extras time moves)).1.map Completion.said =
        (c.ownEnded extras time moves).map Completion.said
  | _, _, _, _, [], h => ⟨h, rfl⟩
  | c, d, time, time', move :: rest, h => by
    rw [ownMoves, ownEnded, run_cons]
    cases hslips : c.slips extras move with
    | true =>
      simp only [if_true, List.nil_append]
      exact (h.step_of_slips hslips time).run (time + 1) time' rest
    | false =>
      obtain ⟨hstep, hsaid⟩ := h.step hslips time time'
      obtain ⟨hrun, hsaids⟩ := hstep.run (time + 1) (time' + 1) rest
      simp only [Bool.false_eq_true, if_false, List.cons_append, List.nil_append, run_cons]
      refine ⟨hrun, ?_⟩
      rw [List.map_append, List.map_append, hsaids, ← Option.toList_map, ← Option.toList_map, hsaid]

end Own

/-! ## The requests that were put in -/

theorem ownEnded_sublist (extras : Extras) : ∀ (c : Crowd) (time : Nat) (moves : List Move),
    (c.ownEnded extras time moves).Sublist (c.run time moves).1
  | _, _, [] => .slnil
  | c, time, move :: rest => by
    rw [ownEnded, run_cons]
    apply List.Sublist.append ?_ (ownEnded_sublist extras _ _ rest)
    split
    · exact List.nil_sublist _
    · exact .refl _

theorem mem_ownEnded_or (extras : Extras) {k : Completion} :
    ∀ {c : Crowd} {time : Nat} {moves : List Move}, k ∈ (c.run time moves).1 →
      k ∈ c.ownEnded extras time moves ∨ k.request.onlyLooks = true
  | _, _, [], hk => absurd hk List.not_mem_nil
  | c, time, move :: rest, hk => by
    rw [run_cons, List.mem_append, Option.mem_toList] at hk
    rw [ownEnded, List.mem_append]
    rcases hk with hnow | hlater
    · cases hslips : c.slips extras move with
      | true =>
        obtain ⟨request, todo, hc, hlooks, -⟩ := caller_of_slips hslips
        obtain ⟨a, todo', report, mint, hp, -, rfl⟩ := over_of_step hnow
        rw [Crowd.acting?, hc] at hp
        cases hp
        exact .inr hlooks
      | false =>
        left
        left
        exact Option.mem_toList.mpr hnow
    · rcases mem_ownEnded_or extras hlater with hown | hlooks
      · exact .inl (.inr hown)
      · exact .inr hlooks

/-! ## Whoever looks -/

/-- What happens to a crowd `c` over a schedule, happens without the requests that were put in to a
crowd `d`. -/
structure AlikeWithout (extras : Extras) (c d : Crowd) (time time' : Nat) (moves : List Move) :
    Prop where
  /-- The slot, the fallback and all generators are the same at the end. -/
  registry : (d.run time' (c.ownMoves extras time moves)).2.mint.registry =
    (c.run time moves).2.mint.registry
  /-- The requests that were not put in end in the same order, and with the same answers. -/
  answers : (d.run time' (c.ownMoves extras time moves)).1.map Completion.said =
    (c.ownEnded extras time moves).map Completion.said
  /-- They are among those that end. -/
  among : (c.ownEnded extras time moves).Sublist (c.run time moves).1
  /-- All others that end only look. -/
  others : ∀ k ∈ (c.run time moves).1,
    k ∈ c.ownEnded extras time moves ∨ k.request.onlyLooks = true

/-- **The fallback is made only when it is needed, whoever looks.** Over every schedule, it is made
at most once, by a look-up whose own first action found the slot empty, and what is said of it never
goes back. Any requests that only look may be put in or left out, without a difference to the
registry or to any other answer. -/
theorem fallback_by_need_whoever_looks (mint : Mint) (todos : Array (List Request)) (time : Nat)
    (moves : List Move) :
    (fresh mint todos).FallbackByNeed time moves ∧
      ∀ (extras : Extras) (time' : Nat),
        AlikeWithout extras (fresh mint todos)
          (fresh mint (todos.mapIdx fun i todo => Request.own (extras i) todo)) time time' moves := by
  refine ⟨fallbackByNeed mint todos time moves, ?_⟩
  intro extras time'
  obtain ⟨hown, hsaid⟩ := (own_fresh extras mint todos).run time time' moves
  exact ⟨hown.registry, hsaid, ownEnded_sublist extras _ time moves,
    fun k hk => mem_ownEnded_or extras hk⟩

end Crowd
end IdMint

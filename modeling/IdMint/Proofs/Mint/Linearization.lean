import IdMint.Proofs.Mint.Actions

/-!
# The slot under callers that overlap

A look-up takes up to three actions, and other callers may act between any two of them. Still every
call on the registry looks as if it had happened at once. The instant is that of its *last* action:
a look-up that finds a generator has read the cell just then, one that places the fallback has found
the cell empty just then, and its earlier actions have left the slot alone. So the calls replay on
the slot in the order in which they ended, with nothing to rearrange (`Crowd.Tracked.replays`).

The invariant is about requests under way (`Activity.Tracked`). A fallback that is about to be
offered is the one fallback that there is, and a look-up that has found something has ended, which
is on record. Both are settled by the caller's own earlier actions, and no one else can unsettle
them.
-/

namespace IdMint

/-! ## The calls of a schedule -/

/-- What a request asks of the slot, if it asks nothing else. -/
def Request.slotCall? : Request → Option SlotCall
  | .install ref => some (.put ref)
  | .current => some .look
  | .generator => some .lookUp
  | _ => none

/-- The call on the slot that ends with an action, and its answer. The look-up of a request that
goes on to call the generator is such a call as well. -/
def Step.slotCall? (request : Request) : Step → Option (SlotCall × Response)
  | .later (.found ref) _ => some (.lookUp, .generator ref)
  | .later _ _ => none
  | .over report =>
    match request.slotCall?, report.outcome with
    | some call, .ok response => some (call, response)
    | _, _ => none

theorem Request.slotCall?_of_aside {request : Request} (h : request.Aside) :
    request.slotCall? = none := by
  cases request with
  | hasFallback => rfl
  | identifier kind => rfl
  | _ => exact h.elim

theorem Request.slotCall?_of_target? {request : Request} {lookup : Lookup} {ref : Fleet.Ref}
    (h : request.target? lookup = some ref) : request.slotCall? = none := by
  cases request with
  | nextOf ref => rfl
  | next => rfl
  | identifier kind => rfl
  | _ => exact nomatch h

theorem Step.slotCall?_over {request : Request} {report : Report Response}
    (h : request.slotCall? = none) : (Step.over report).slotCall? request = none := by
  simp only [slotCall?, h]

theorem Step.slotCall?_eq_some {request : Request} {report : Report Response} {call : SlotCall}
    {response : Response} (h : (Step.over report).slotCall? request = some (call, response)) :
    request.slotCall? = some call := by
  simp only [slotCall?] at h
  split at h
  · rename_i hcall _
    cases h
    exact hcall
  · exact nomatch h

/-- Only a request to install a generator puts one into the slot. -/
theorem Request.eq_install_of_put? {request : Request} {call : SlotCall} {ref : Fleet.Ref}
    (h : request.slotCall? = some call) (hput : call.put? = some ref) :
    request = .install ref := by
  cases request with
  | install installed =>
    cases h
    exact congrArg install (Option.some.inj hput)
  | current =>
    cases h
    exact nomatch hput
  | generator =>
    cases h
    exact nomatch hput
  | _ => exact nomatch h

theorem Step.slotCall?_found (request : Request) (ref : Fleet.Ref) :
    (Step.found request ref).slotCall? request = some (.lookUp, .generator ref) := by
  cases request <;> rfl

theorem Step.later_eq_found {request : Request} {ref : Fleet.Ref} {lookup : Lookup}
    {events : List Event} (h : Step.later lookup events = .found request ref) :
    lookup = .found ref ∧ request ≠ .generator := by
  cases request with
  | generator => exact nomatch h
  | _ =>
    cases h
    exact ⟨rfl, fun h => nomatch h⟩

theorem Step.over_eq_found {request : Request} {ref : Fleet.Ref} {report : Report Response}
    (h : Step.over report = .found request ref) :
    report = { outcome := .ok (.generator ref) } ∧ request = .generator := by
  cases request with
  | generator =>
    cases h
    exact ⟨rfl, rfl⟩
  | _ => exact nomatch h

namespace Crowd

/-- The call on the registry that ends with an entry of a schedule, as its caller saw it. -/
def registryCall? (c : Crowd) (time : Nat) (move : Move) : Option RegistryCall :=
  (c.acting? time move).bind fun (a, _) =>
    ((c.mint.act a.request a.lookup move.supply).1.slotCall? a.request).map
      fun (call, response) =>
        { caller := move.caller, call, response, started := a.started, ended := time }

/-- All calls on the registry that have ended by the end of a schedule, in the order of their
ends. -/
def registryCalls (c : Crowd) (time : Nat) : List Move → List RegistryCall
  | [] => []
  | move :: rest =>
    (c.registryCall? time move).toList ++ (c.step time move).2.registryCalls (time + 1) rest

theorem registryCall?_of_acting {c : Crowd} {time : Nat} {move : Move} {a : Activity}
    {todo : List Request} {s : Step} {mint : Mint} (hp : c.acting? time move = some (a, todo))
    (hact : c.mint.act a.request a.lookup move.supply = (s, mint)) :
    c.registryCall? time move = (s.slotCall? a.request).map fun (call, response) =>
      { caller := move.caller, call, response, started := a.started, ended := time } := by
  simp only [registryCall?, hp, hact, Option.bind_some]

theorem registryCall?_of_idle {c : Crowd} {time : Nat} {move : Move}
    (hp : c.acting? time move = none) : c.registryCall? time move = none := by
  simp only [registryCall?, hp, Option.bind_none]

end Crowd

/-! ## One action -/

namespace Mint.Acts

variable {m m' : Mint} {request : Request} {lookup : Lookup} {supply : List Reading}

/-- An action does to the slot what the call does that ends with it, and otherwise nothing. -/
theorem answer_eq {step : Step} (h : Acts m supply request lookup step m')
    (hoff : ∀ ref, lookup = .offering ref → ref = m.registry.fallbackRef)
    (hgen : ∀ ref, lookup = .found ref → request ≠ .generator) :
    (step.slotCall? request = none ∧ m'.registry.installed? = m.registry.installed?) ∨
    ∃ call response, step.slotCall? request = some (call, response) ∧
      call.answer m.registry.fallbackRef m.registry.installed? =
        (response, m'.registry.installed?) := by
  cases h with
  | installed hg => exact .inr ⟨_, _, rfl, rfl⟩
  | stranger hg => exact .inl ⟨rfl, rfl⟩
  | current => exact .inr ⟨_, _, rfl, rfl⟩
  | aside haside hr =>
    exact .inl ⟨Step.slotCall?_over (Request.slotCall?_of_aside haside), by rw [hr]⟩
  | seen hreq hi => exact .inr ⟨_, _, Step.slotCall?_found _ _, by rw [hi]; rfl⟩
  | missed hreq hi => exact .inl ⟨rfl, rfl⟩
  | took hreq => exact .inl ⟨rfl, m.registry.installed?_withFallback⟩
  | placed hreq hi =>
    refine .inr ⟨_, _, Step.slotCall?_found _ _, ?_⟩
    rw [hi, hoff _ rfl]
    rfl
  | beaten hreq hi => exact .inr ⟨_, _, Step.slotCall?_found _ _, by rw [hi]; rfl⟩
  | called ht =>
    exact .inl ⟨Step.slotCall?_over (Request.slotCall?_of_target? ht), rfl⟩
  | repeated => exact absurd rfl (hgen _ rfl)

/-- A request that goes on offers nothing but the fallback, and once it has found a generator it
has more to do than to look up. -/
theorem of_later {lookup' : Lookup} {events : List Event}
    (h : Acts m supply request lookup (.later lookup' events) m') :
    (∀ ref, lookup' = .offering ref → ref = m.registry.fallbackRef) ∧
      ∀ ref, lookup' = .found ref → request ≠ .generator := by
  have ofFound {ref : Fleet.Ref} (hs : Step.later lookup' events = .found request ref) :
      (∀ ref, lookup' = .offering ref → ref = m.registry.fallbackRef) ∧
        ∀ ref, lookup' = .found ref → request ≠ .generator := by
    obtain ⟨rfl, hreq⟩ := Step.later_eq_found hs
    exact ⟨fun _ h => (nomatch h), fun _ _ => hreq⟩
  generalize hs : Step.later lookup' events = step at h
  cases h with
  | seen hreq hi => exact ofFound hs
  | missed hreq hi =>
    cases hs
    exact ⟨fun _ h => (nomatch h), fun _ h => (nomatch h)⟩
  | took hreq =>
    cases hs
    exact ⟨fun _ h => (Lookup.offering.inj h).symm, fun _ h => (nomatch h)⟩
  | placed hreq hi => exact ofFound hs
  | beaten hreq hi => exact ofFound hs
  | _ => exact nomatch hs

/-- A request for the slot has its answer when it is over, unless the generator that it was to put
there is a stranger. -/
theorem outcome_of_over {report : Report Response} {call : SlotCall}
    (h : Acts m supply request lookup (.over report) m') (hcall : request.slotCall? = some call) :
    (∃ response, report.outcome = .ok response) ∨
      ∃ ref, call = .put ref ∧ report.outcome = .error .unanswered ∧
        m.registry.fleet.get? ref = none := by
  generalize hs : Step.over report = step at h
  cases h with
  | installed hg =>
    cases hs
    exact .inl ⟨_, rfl⟩
  | @stranger lookup ref hg =>
    cases hs
    exact .inr ⟨ref, (Option.some.inj hcall).symm, rfl, hg⟩
  | current =>
    cases hs
    exact .inl ⟨_, rfl⟩
  | aside haside hr =>
    rw [Request.slotCall?_of_aside haside] at hcall
    exact nomatch hcall
  | called ht =>
    rw [Request.slotCall?_of_target? ht] at hcall
    exact nomatch hcall
  | repeated =>
    cases hs
    exact .inl ⟨_, rfl⟩
  | seen hreq hi => exact .inl ⟨_, by rw [(Step.over_eq_found hs).1]⟩
  | placed hreq hi => exact .inl ⟨_, by rw [(Step.over_eq_found hs).1]⟩
  | beaten hreq hi => exact .inl ⟨_, by rw [(Step.over_eq_found hs).1]⟩
  | _ => exact nomatch hs

/-- A request that looks up is not over before its look-up is. -/
theorem lookUp_of_over {report : Report Response}
    (h : Acts m supply request lookup (.over report) m') (hreq : request.looksUp = true) :
    request = .generator ∨ ∃ ref, lookup = .found ref := by
  generalize hs : Step.over report = step at h
  cases h with
  | aside haside hr =>
    rw [Request.looksUp_of_aside haside] at hreq
    exact nomatch hreq
  | called ht => exact .inr ⟨_, Request.lookup_of_target? ht hreq⟩
  | repeated => exact .inl rfl
  | seen _ hi => exact .inl (Step.over_eq_found hs).2
  | placed _ hi => exact .inl (Step.over_eq_found hs).2
  | beaten _ hi => exact .inl (Step.over_eq_found hs).2
  | installed | stranger | current => exact nomatch hreq
  | _ => exact nomatch hs

end Mint.Acts

/-! ## Requests under way -/

/-- What holds of a request under way at a time, when the calls of the past are these. -/
structure Activity.Tracked (fallback : Fleet.Ref) (past : List RegistryCall) (caller time : Nat)
    (a : Activity) : Prop where
  started_le : a.started ≤ time
  /-- The fallback is all that is ever offered. -/
  offering : ∀ ref, a.lookup = .offering ref → ref = fallback
  /-- A look-up that has found a generator is over and done with. -/
  found : ∀ ref, a.lookup = .found ref → a.request ≠ .generator ∧ ∃ ended, ended ≤ time ∧
    { caller, call := .lookUp, response := .generator ref, started := a.started, ended } ∈ past

theorem Activity.Tracked.mono {fallback : Fleet.Ref} {past past' : List RegistryCall}
    {caller time time' : Nat} {a : Activity} (h : a.Tracked fallback past caller time)
    (hp : past ⊆ past') (ht : time ≤ time') : a.Tracked fallback past' caller time' where
  started_le := Nat.le_trans h.started_le ht
  offering := h.offering
  found := fun ref hf =>
    let ⟨hreq, ended, he, hmem⟩ := h.found ref hf
    ⟨hreq, ended, Nat.le_trans he ht, hp hmem⟩

/-- A request that is over has left its calls on record. If it was for the slot, it was answered,
save that nobody can install a generator that was never given. If it had to look up, its look-up
lies within the time that it took. -/
structure Completion.Recorded (calls : List RegistryCall) (fleet : Fleet) (k : Completion) :
    Prop where
  call : ∀ call, k.request.slotCall? = some call →
    (∃ response, k.report.outcome = .ok response ∧
      { caller := k.caller, call, response, started := k.started, ended := k.ended } ∈ calls) ∨
    ∃ ref, call = .put ref ∧ k.report.outcome = .error .unanswered ∧ fleet.get? ref = none
  lookUp : k.request.looksUp = true → ∃ ref ended, ended ≤ k.ended ∧
    { caller := k.caller, call := .lookUp, response := .generator ref,
      started := k.started, ended } ∈ calls

theorem Completion.Recorded.mono {calls calls' : List RegistryCall} {fleet fleet' : Fleet}
    {k : Completion} (h : k.Recorded calls fleet') (hc : calls ⊆ calls')
    (hf : fleet.Keeps fleet') : k.Recorded calls' fleet where
  call := fun call hcall => by
    rcases h.call call hcall with ⟨response, ho, hmem⟩ | ⟨ref, hput, ho, hnone⟩
    · exact .inl ⟨response, ho, hc hmem⟩
    · refine .inr ⟨ref, hput, ho, Option.eq_none_iff_forall_ne_some.mpr fun g hg => ?_⟩
      obtain ⟨g', hg', -⟩ := hf ref g hg
      rw [hnone] at hg'
      exact nomatch hg'
  lookUp := fun hreq =>
    let ⟨ref, ended, he, hmem⟩ := h.lookUp hreq
    ⟨ref, ended, he, hc hmem⟩

namespace Crowd

/-- What is in the slot. -/
def slot (c : Crowd) : Option Fleet.Ref := c.mint.registry.installed?

/-- The ref of the fallback, made or not. -/
def fallbackRef (c : Crowd) : Fleet.Ref := c.mint.registry.fallbackRef

/-- All requests under way are tracked. -/
def Tracked (c : Crowd) (past : List RegistryCall) (time : Nat) : Prop :=
  ∀ (i : Nat) (caller : Caller) (a : Activity), c.callers[i]? = some caller →
    caller.doing? = some a → a.Tracked c.fallbackRef past i time

theorem tracked_fresh (mint : Mint) (todos : Array (List Request)) (time : Nat) :
    (fresh mint todos).Tracked [] time := by
  intro i caller a hc ha
  rw [fresh, Array.getElem?_map] at hc
  obtain ⟨todo, -, rfl⟩ := Option.map_eq_some_iff.mp hc
  exact nomatch ha

theorem fallbackRef_step (c : Crowd) (time : Nat) (move : Move) :
    (c.step time move).2.fallbackRef = c.fallbackRef := by
  rcases c.acts_step time move with hidle | ⟨request, lookup, step, h⟩
  · exact congrArg (·.registry.fallbackRef) hidle
  · exact h.fallbackRef_eq

theorem keeps_step (c : Crowd) (time : Nat) (move : Move) :
    c.mint.registry.fleet.Keeps (c.step time move).2.mint.registry.fleet := by
  rcases c.acts_step time move with hidle | ⟨request, lookup, step, h⟩
  · rw [hidle]
    exact .refl _
  · exact h.keeps

theorem withFallback_keeps_step (c : Crowd) (time : Nat) (move : Move) :
    (c.step time move).2.mint.registry.withFallback.fleet.Keeps
      c.mint.registry.withFallback.fleet := by
  rcases c.acts_step time move with hidle | ⟨request, lookup, step, h⟩
  · rw [hidle]
    exact .refl _
  · exact h.withFallback_keeps

namespace Tracked

variable {c : Crowd} {past : List RegistryCall} {time : Nat}

theorem acting (h : c.Tracked past time) {move : Move} {a : Activity} {todo : List Request}
    (hp : c.acting? time move = some (a, todo)) :
    a.Tracked c.fallbackRef past move.caller time := by
  obtain ⟨caller, hc, ha | ⟨-, hl, hs⟩⟩ := acting?_cases hp
  · exact h _ _ _ hc ha
  · refine ⟨Nat.le_of_eq hs, fun ref ho => ?_, fun ref hf => ?_⟩
    · rw [hl] at ho
      exact nomatch ho
    · rw [hl] at hf
      exact nomatch hf

/-- **Step.** The call that ends with an entry of a schedule, if one does, is what happens to the
slot. -/
theorem replays_step (h : c.Tracked past time) (move : Move) :
    Replays c.fallbackRef c.slot (c.registryCall? time move).toList
      (c.step time move).2.slot := by
  have ofAct {a : Activity} {todo : List Request} {s : Step} {mint : Mint}
      (hp : c.acting? time move = some (a, todo))
      (hact : c.mint.act a.request a.lookup move.supply = (s, mint)) :
      Replays c.fallbackRef c.slot (c.registryCall? time move).toList
        mint.registry.installed? := by
    have ha := h.acting hp
    rw [registryCall?_of_acting hp hact]
    rcases (Mint.Acts.ofAct hact).answer_eq ha.offering fun ref hf => (ha.found ref hf).1 with
      ⟨hnone, hslot⟩ | ⟨call, response, hsome, hans⟩
    · rw [hnone]
      exact hslot
    · rw [hsome]
      exact ⟨(congrArg Prod.fst hans).symm, (congrArg Prod.snd hans).symm⟩
  rcases c.step_cases time move with ⟨hp, hs⟩ | ⟨a, todo, lookup, events, mint, hp, hact, hs⟩ |
    ⟨a, todo, report, mint, hp, hact, hs⟩
  · rw [hs, registryCall?_of_idle hp]
    exact rfl
  · rw [hs]
    exact ofAct hp hact
  · rw [hs]
    exact ofAct hp hact

/-- **Step.** Requests under way stay tracked. Only the caller who acts has anything new to show. -/
theorem step (h : c.Tracked past time) (move : Move) :
    (c.step time move).2.Tracked (past ++ (c.registryCall? time move).toList) (time + 1) := by
  have hsub : past ⊆ past ++ (c.registryCall? time move).toList := List.subset_append_left _ _
  intro i caller b hc hb
  rw [fallbackRef_step]
  rcases c.step_cases time move with ⟨-, hs⟩ | ⟨a, todo, lookup, events, mint, hp, hact, hs⟩ |
    ⟨a, todo, report, mint, hp, hact, hs⟩
  · rw [hs] at hc
    exact (h i caller b hc hb).mono hsub (Nat.le_succ time)
  · rw [hs] at hc
    rcases doing?_after hc with ⟨rfl, hd⟩ | hold
    · rw [hd] at hb
      cases hb
      have ha := h.acting hp
      obtain ⟨hoff, hgen⟩ := (Mint.Acts.ofAct hact).of_later
      -- If the look-up has just found a generator, it is the last call on record.
      refine ⟨Nat.le_succ_of_le ha.started_le, hoff, fun ref hf => ⟨hgen ref hf, time,
        Nat.le_succ time, List.mem_append_right _ ?_⟩⟩
      cases hf
      rw [registryCall?_of_acting hp hact]
      exact List.mem_singleton_self _
    · exact (h i caller b hold hb).mono hsub (Nat.le_succ time)
  · rw [hs] at hc
    rcases doing?_after hc with ⟨rfl, hd⟩ | hold
    · rw [hd] at hb
      exact nomatch hb
    · exact (h i caller b hold hb).mono hsub (Nat.le_succ time)

/-- **Step.** A request that ends with an entry of a schedule is on record. -/
theorem recorded_step (h : c.Tracked past time) {move : Move} {k : Completion}
    (hk : (c.step time move).1 = some k) :
    k.Recorded (past ++ (c.registryCall? time move).toList) c.mint.registry.fleet := by
  obtain ⟨a, todo, report, mint, hp, hact, rfl⟩ := over_of_step hk
  have hacts := Mint.Acts.ofAct hact
  have hcall : ∀ call response, a.request.slotCall? = some call → report.outcome = .ok response →
      c.registryCall? time move = some
        { caller := move.caller, call, response, started := a.started, ended := time } := by
    intro call response hreq ho
    rw [registryCall?_of_acting hp hact]
    simp only [Step.slotCall?, hreq, ho, Option.map_some]
  refine ⟨fun call hreq => ?_, fun hreq => ?_⟩
  · rcases hacts.outcome_of_over hreq with ⟨response, ho⟩ | hstranger
    · refine .inl ⟨response, ho, List.mem_append_right _ ?_⟩
      rw [hcall call response hreq ho]
      exact List.mem_singleton_self _
    · exact .inr hstranger
  · rcases hacts.lookUp_of_over hreq with hgen | ⟨ref, hfound⟩
    · have hreq' : a.request.slotCall? = some .lookUp := by rw [hgen]; rfl
      rcases hacts.outcome_of_over hreq' with ⟨response, ho⟩ | ⟨ref, hput, -⟩
      · -- What the look-up has answered is what the slot does.
        have hr := h.replays_step move
        rw [hcall .lookUp response hreq' ho] at hr ⊢
        have hresponse : response = .generator (c.slot.getD c.fallbackRef) := hr.1
        refine ⟨c.slot.getD c.fallbackRef, time, Nat.le_refl time, List.mem_append_right _ ?_⟩
        rw [hresponse]
        exact List.mem_singleton_self _
      · exact nomatch hput
    · obtain ⟨-, ended, hle, hmem⟩ := (h.acting hp).found ref hfound
      exact ⟨ref, ended, hle, List.mem_append_left _ hmem⟩

end Tracked

/-! ## Schedules -/

theorem fallbackRef_run : ∀ (c : Crowd) (time : Nat) (moves : List Move),
    (c.run time moves).2.fallbackRef = c.fallbackRef
  | _, _, [] => rfl
  | c, time, move :: rest => by
    rw [run_cons, fallbackRef_run, fallbackRef_step]

theorem withFallback_keeps_run : ∀ (c : Crowd) (time : Nat) (moves : List Move),
    (c.run time moves).2.mint.registry.withFallback.fleet.Keeps c.mint.registry.withFallback.fleet
  | _, _, [] => .refl _
  | c, time, move :: rest =>
    (withFallback_keeps_run _ _ rest).trans (c.withFallback_keeps_step time move)

namespace Tracked

/-- **The calls on the registry replay on the slot in the order in which they ended.** Induction on
the schedule, one action at a time. -/
theorem replays : ∀ {c : Crowd} {past : List RegistryCall} {time : Nat} (moves : List Move),
    c.Tracked past time →
      Replays c.fallbackRef c.slot (c.registryCalls time moves) (c.run time moves).2.slot
  | _, _, _, [], _ => rfl
  | c, _, time, move :: rest, h => by
    have hrest := (h.step move).replays rest
    rw [fallbackRef_step] at hrest
    exact (h.replays_step move).append hrest

theorem run : ∀ {c : Crowd} {past : List RegistryCall} {time : Nat} (moves : List Move),
    c.Tracked past time →
      (c.run time moves).2.Tracked (past ++ c.registryCalls time moves) (time + moves.length)
  | _, past, _, [], h => by
    rw [registryCalls, List.append_nil]
    exact h
  | _, _, time, move :: rest, h => by
    have hrest := (h.step move).run rest
    rw [List.append_assoc, Nat.add_assoc, Nat.add_comm 1] at hrest
    exact hrest

theorem recorded : ∀ {c : Crowd} {past : List RegistryCall} {time : Nat} (moves : List Move),
    c.Tracked past time → ∀ k ∈ (c.run time moves).1,
      k.Recorded (past ++ c.registryCalls time moves) c.mint.registry.fleet
  | _, _, _, [], _, _, hk => absurd hk List.not_mem_nil
  | c, past, time, move :: rest, h, k, hk => by
    rw [registryCalls, ← List.append_assoc]
    rcases List.mem_append.mp hk with hnow | hlater
    · exact (h.recorded_step (Option.mem_toList.mp hnow)).mono (List.subset_append_left _ _)
        (.refl _)
    · exact ((h.step move).recorded rest k hlater).mono (fun _ hj => hj) (c.keeps_step time move)

theorem ended_step {c : Crowd} {past : List RegistryCall} {time : Nat} (h : c.Tracked past time)
    {move : Move} {k : RegistryCall} (hk : c.registryCall? time move = some k) :
    k.started ≤ time ∧ k.ended = time := by
  obtain ⟨⟨a, todo⟩, hp, hcall⟩ := Option.bind_eq_some_iff.mp hk
  obtain ⟨⟨call, response⟩, -, rfl⟩ := Option.map_eq_some_iff.mp hcall
  exact ⟨(h.acting hp).started_le, rfl⟩

/-- The calls end one after the other, and none before it has begun. -/
theorem ends : ∀ {c : Crowd} {past : List RegistryCall} {time : Nat} (moves : List Move),
    c.Tracked past time →
      (c.registryCalls time moves).Pairwise (fun j k => j.ended < k.ended) ∧
        ∀ k ∈ c.registryCalls time moves, k.started ≤ k.ended ∧ time ≤ k.ended
  | _, _, _, [], _ => ⟨.nil, fun _ hk => absurd hk List.not_mem_nil⟩
  | c, past, time, move :: rest, h => by
    obtain ⟨hpair, hrest⟩ := (h.step move).ends rest
    refine ⟨List.pairwise_append.mpr ⟨?_, hpair, fun j hj k hk => ?_⟩, fun k hk => ?_⟩
    · cases c.registryCall? time move with
      | none => exact .nil
      | some k => exact List.pairwise_singleton _ _
    · have hj' := (h.ended_step (Option.mem_toList.mp hj)).2
      have hk' := (hrest k hk).2
      omega
    · rcases List.mem_append.mp hk with hnow | hlater
      · obtain ⟨hs, he⟩ := h.ended_step (Option.mem_toList.mp hnow)
        exact ⟨he ▸ hs, Nat.le_of_eq he.symm⟩
      · obtain ⟨hs, he⟩ := hrest k hlater
        exact ⟨hs, Nat.le_of_succ_le he⟩

end Tracked

/-- **Callers that overlap see one slot.** Every call on the registry that has ended took effect at
one instant between its start and its end, and every request that is over has left its calls among
these. In particular:

* a slot that holds a generator is never empty again, and holds another only if one was put there;
* a generator that is handed over was in the slot from the start, was put there, or is the fallback;
* there is one fallback, and no other generator has come into being. -/
theorem registry_linearizable (mint : Mint) (todos : Array (List Request)) (time : Nat)
    (moves : List Move) :
    let c := fresh mint todos
    let calls := c.registryCalls time moves
    let c' := (c.run time moves).2
    Linearizable c.fallbackRef c.slot calls c'.slot ∧
    (∀ k ∈ (c.run time moves).1, k.Recorded calls mint.registry.fleet) ∧
    (∀ earlier later, moves = earlier ++ later → ∀ ref, (c.run time earlier).2.slot = some ref →
      let puts := ((c.run time earlier).2.registryCalls (time + earlier.length) later).filterMap
        (·.call.put?)
      c'.slot = some (puts.getLast?.getD ref)) ∧
    (∀ k ∈ calls, ∀ ref, k.response.HandsOver ref →
      ref = c.fallbackRef ∨ c.slot = some ref ∨
        ∃ p ∈ calls, p.call = .put ref ∧ p.ended < k.ended) ∧
    (∀ ref, c'.mint.registry.fallback? = some ref → ref = c.fallbackRef) ∧
    ∀ ref g, c'.mint.registry.fleet.get? ref = some g →
      (∃ g₀, mint.registry.fleet.get? ref = some g₀) ∨ ref = c.fallbackRef := by
  intro c calls c'
  have h : c.Tracked [] time := tracked_fresh mint todos time
  have hreplays := h.replays moves
  obtain ⟨hpair, hends⟩ := h.ends moves
  refine ⟨hreplays.linearizable hpair fun k hk => (hends k hk).1, h.recorded moves, ?_, ?_, ?_, ?_⟩
  · rintro earlier later rfl ref hslot puts
    -- The later part is a run of its own, from where the earlier part has left the crowd.
    have hlater := (h.run earlier).replays later
    rw [hslot, ← run_append] at hlater
    exact hlater.slot_eq
  · intro k hk ref hover
    obtain ⟨before, later, (hsplit : c.registryCalls time moves = before ++ k :: later)⟩ :=
      List.append_of_mem hk
    rw [hsplit] at hreplays hpair
    -- The calls replay in the order of their ends, so what comes before has ended before.
    rcases hreplays.origin hover with hf | hs | ⟨p, hp, hput⟩
    · exact .inl hf
    · exact .inr (.inl hs)
    · refine .inr (.inr ⟨p, ?_, hput, ?_⟩)
      · rw [show calls = _ from hsplit]
        exact List.mem_append_left _ hp
      · exact (List.pairwise_append.mp hpair).2.2 p hp k List.mem_cons_self
  · intro ref hfallback
    rw [← Registry.fallbackRef_of_some hfallback]
    exact fallbackRef_run c time moves
  · intro ref g hg
    obtain ⟨g', hg', -⟩ := c'.mint.registry.keeps_withFallback ref g hg
    obtain ⟨g₀, hg₀, -⟩ := withFallback_keeps_run c time moves ref g' hg'
    exact (Registry.get?_withFallback hg₀).imp (fun h => ⟨g₀, h⟩) fun h => h.1

end Crowd
end IdMint

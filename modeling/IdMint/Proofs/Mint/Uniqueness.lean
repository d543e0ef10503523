import IdMint.Proofs.Fleet.Issues
import IdMint.Proofs.Mint.Linearization
import IdMint.Proofs.Text.Numeral

/-!
# The ids of a registry

Ids leave a mint in three ways: as the next id of its registry, as that id spelled out, and as the
next id of a generator that a caller has kept. Underneath, each is one call on one generator. So a
crowd is seen from its generators as a history of a fleet (`Crowd.visits`), the ids of the crowd are
the ids of that history (`Crowd.issued_run`), and what is known of histories holds of crowds.

The fleet of that history has the fallback among its generators from the start. No call goes to the
fallback before it is made, so nobody can tell the difference.
-/

namespace IdMint

/-! ## Ids in answers -/

/-- The id in an answer to a request. An id that is spelled out is read back. -/
def Request.read? : Request → Response → Option UInt64
  | .identifier .snowflake, .text text =>
    (Text.Numeral.readDigits? text.toList).map UInt64.ofNat
  | .next, .id id => some id
  | .nextOf _, .id id => some id
  | _, _ => none

theorem Request.read?_say {request : Request} {lookup : Lookup} {ref : Fleet.Ref}
    (h : request.target? lookup = some ref) (id : UInt64) :
    request.read? (request.say id) = some id := by
  cases request with
  | next => rfl
  | nextOf ref => rfl
  | identifier kind =>
    cases kind with
    | snowflake =>
      simp only [say, read?, Text.Numeral.toList_toString, Text.Numeral.readDigits?_digits,
        Option.map_some, UInt64.ofNat_toNat]
    | _ => exact nomatch h
  | _ => exact nomatch h

namespace Completion

/-- Who was handed an id, and which. -/
def issued? (k : Completion) : Option (Nat × UInt64) :=
  match k.report.outcome with
  | .ok response => (k.request.read? response).map fun id => (k.caller, id)
  | .error _ => none

/-- The text that a request for a spelled id was answered with. -/
def spelled? (k : Completion) : Option String :=
  match k.request, k.report.outcome with
  | .identifier .snowflake, .ok (.text text) => some text
  | _, _ => none

theorem issued?_of_ok {k : Completion} {response : Response}
    (ho : k.report.outcome = .ok response) :
    k.issued? = (k.request.read? response).map fun id => (k.caller, id) := by
  unfold issued?
  rw [ho]

theorem issued?_of_say {k : Completion} {v : Fleet.Visit} {report : Report UInt64}
    {lookup : Lookup} {ref : Fleet.Ref} (ht : k.request.target? lookup = some ref)
    (ho : k.report.outcome = report.outcome.map k.request.say) (hc : k.caller = v.caller) :
    k.issued? = (v.issue? report).map fun i => (i.caller, i.id) := by
  unfold issued? Fleet.Visit.issue?
  rw [ho]
  cases report.outcome with
  | ok id =>
    simp only [Except.map, Request.read?_say ht, hc, Option.map_some]
  | error f => rfl

theorem issued?_eq_none {k : Completion} (h : ∀ response, k.request.read? response = none) :
    k.issued? = none := by
  unfold issued?
  split
  · rw [h]
    rfl
  · rfl

/-- Whether a request that asked for a generator was given this one. -/
def HandsOver (k : Completion) (ref : Fleet.Ref) : Prop :=
  (k.request = .generator ∨ k.request = .current) ∧
    ∃ response, k.report.outcome = .ok response ∧ response.HandsOver ref

end Completion

/-- A request that is over without a call on a generator was answered with no id. -/
theorem Mint.Acts.read?_eq_none {m m' : Mint} {request : Request} {lookup : Lookup}
    {supply : List Reading} {report : Report Response}
    (h : Acts m supply request lookup (.over report) m') (ht : request.target? lookup = none)
    (response : Response) : request.read? response = none := by
  cases request with
  | next =>
    rcases h.lookUp_of_over rfl with hgen | ⟨ref, rfl⟩
    · exact nomatch hgen
    · exact nomatch ht
  | nextOf ref => exact nomatch ht
  | identifier kind =>
    cases kind with
    | snowflake =>
      rcases h.lookUp_of_over rfl with hgen | ⟨ref, rfl⟩
      · exact nomatch hgen
      · exact nomatch ht
    | _ => rfl
  | _ => rfl

/-! ## Calls on generators -/

namespace Crowd

/-- The call on a generator that an entry of a schedule is, if it is one. A ref that was never
given stands for no generator that could be called. -/
def visit? (c : Crowd) (time : Nat) (move : Move) : Option Fleet.Visit :=
  (c.acting? time move).bind fun (a, _) =>
    (a.request.target? a.lookup).bind fun ref =>
      (c.mint.registry.fleet.get? ref).map fun _ =>
        { ref, supply := move.supply, caller := move.caller }

/-- All calls on generators in a schedule, in order. -/
def visits (c : Crowd) (time : Nat) : List Move → List Fleet.Visit
  | [] => []
  | move :: rest => (c.visit? time move).toList ++ (c.step time move).2.visits (time + 1) rest

/-- The generators that a crowd may come to call, with the fallback among them. -/
def fleet (c : Crowd) : Fleet := c.mint.registry.withFallback.fleet

/-- **Step.** An entry of a schedule hands out what the call does that it is, and does the same to
the generators; one that is no call hands out nothing. -/
theorem issued_step (c : Crowd) (time : Nat) (move : Move) :
    (∃ v, c.visit? time move = some v ∧
      (c.step time move).1.bind Completion.issued? =
        (v.issue? (c.fleet.call v.ref v.supply).1).map (fun i => (i.caller, i.id)) ∧
      (c.step time move).2.fleet = (c.fleet.call v.ref v.supply).2) ∨
    c.visit? time move = none ∧ (c.step time move).1.bind Completion.issued? = none ∧
      (c.step time move).2.fleet = c.fleet := by
  rcases c.step_cases time move with ⟨hp, hs⟩ | ⟨a, todo, lookup, events, mint, hp, hact, hs⟩ |
    ⟨a, todo, report, mint, hp, hact, hs⟩
  · rw [hs]
    refine .inr ⟨?_, rfl, rfl⟩
    simp only [visit?, hp, Option.bind_none]
  · rw [hs]
    rcases (Mint.Acts.ofAct hact).called_or with ⟨ref, -, hover, -⟩ | ⟨ht, hsame⟩
    · exact nomatch hover
    · refine .inr ⟨?_, rfl, hsame⟩
      simp only [visit?, hp, ht, Option.bind_some, Option.bind_none]
  · rw [hs]
    rcases (Mint.Acts.ofAct hact).called_or with ⟨ref, ht, hover, rfl⟩ | ⟨ht, hsame⟩
    · cases hover
      cases hg : c.mint.registry.fleet.get? ref with
      | none =>
        -- Nobody answers. With the fallback counted in, somebody might, so this is not a call.
        obtain ⟨ho, hm⟩ := Mint.callOn_of_none hg move.supply a.request.say
        refine .inr ⟨?_, ?_, ?_⟩
        · simp only [visit?, hp, ht, hg, Option.bind_some, Option.map_none]
        · simp only [Option.bind_some, Completion.issued?, ho]
        · rw [hm]
          rfl
      | some g =>
        obtain ⟨ho, hm⟩ := Mint.callOn_of_get? hg move.supply a.request.say
        refine .inl ⟨{ ref, supply := move.supply, caller := move.caller }, ?_, ?_, hm⟩
        · simp only [visit?, hp, ht, hg, Option.bind_some, Option.map_some]
        · exact Completion.issued?_of_say ht (by rw [ho]; rfl) rfl
    · refine .inr ⟨?_, ?_, hsame⟩
      · simp only [visit?, hp, ht, Option.bind_some, Option.bind_none]
      · exact Completion.issued?_eq_none ((Mint.Acts.ofAct hact).read?_eq_none ht)

/-- **The ids of a crowd are those of a history of calls**, in the same order and to the same
callers. -/
theorem issued_run : ∀ (c : Crowd) (time : Nat) (moves : List Move),
    (c.run time moves).1.filterMap Completion.issued? =
      (c.fleet.issues (c.visits time moves)).map fun i => (i.caller, i.id)
  | _, _, [] => rfl
  | c, time, move :: rest => by
    have hnow : (c.step time move).1.toList.filterMap Completion.issued? =
        ((c.step time move).1.bind Completion.issued?).toList := by
      cases (c.step time move).1 with
      | none => rfl
      | some k =>
        rw [Option.toList_some, List.filterMap_cons, Option.bind_some]
        cases k.issued? <;> rfl
    rw [run_cons, List.filterMap_append, hnow, issued_run, visits]
    rcases c.issued_step time move with ⟨v, hv, hissued, hfleet⟩ | ⟨hv, hissued, hfleet⟩
    · rw [hissued, hfleet, hv]
      change _ = List.map _ (c.fleet.issues (v :: _))
      rw [Fleet.issues_cons, List.map_append]
      cases v.issue? (c.fleet.call v.ref v.supply).1 <;> rfl
    · rw [hissued, hfleet, hv]
      rfl

/-! ## Spelled ids -/

/-- What is spelled out is an id, in its canonical decimal. -/
theorem spelled_step {c : Crowd} {time : Nat} {move : Move} {k : Completion} {response : Response}
    (hk : (c.step time move).1 = some k) (hreq : k.request = .identifier .snowflake)
    (ho : k.report.outcome = .ok response) :
    ∃ text id, response = .text text ∧ k.issued? = some (k.caller, id) ∧
      Text.Numeral.Canonical text.toList id.toNat := by
  obtain ⟨a, todo, report, mint, -, hact, rfl⟩ := over_of_step hk
  have hacts := Mint.Acts.ofAct hact
  rw [Completion.issued?_of_ok ho]
  change a.request = _ at hreq
  change report.outcome = _ at ho
  rcases hacts.called_or with ⟨ref, ht, hover, -⟩ | ⟨ht, -⟩
  · cases hover
    have hsay : (c.mint.registry.fleet.call ref move.supply).1.outcome.map a.request.say =
      .ok response := ho
    cases hid : (c.mint.registry.fleet.call ref move.supply).1.outcome with
    | error f =>
      rw [hid] at hsay
      exact nomatch hsay
    | ok id =>
      rw [hid] at hsay
      have hresp : a.request.say id = response := Except.ok.inj hsay
      refine ⟨toString id, id, ?_, ?_, ?_⟩
      · rw [← hresp, hreq]
        rfl
      · rw [← hresp, Request.read?_say ht, Option.map_some]
      · rw [Text.Numeral.toList_toString]
        exact Text.Numeral.canonical_digits _
  · rcases hacts.lookUp_of_over (by rw [hreq]; rfl) with hgen | ⟨ref, hfound⟩
    · rw [hreq] at hgen
      exact nomatch hgen
    · rw [hreq, hfound] at ht
      exact nomatch ht

theorem spelled_run {c : Crowd} {time : Nat} {moves : List Move} {k : Completion} {text : String}
    (hk : k ∈ (c.run time moves).1) (ht : k.spelled? = some text) :
    ∃ id, k.issued? = some (k.caller, id) ∧ Text.Numeral.Canonical text.toList id.toNat := by
  obtain ⟨c', time', move, hstep⟩ := step_of_mem_run hk
  unfold Completion.spelled? at ht
  split at ht
  · rename_i text' hreq ho
    cases ht
    obtain ⟨text'', id, hresp, hissued, hcanonical⟩ := spelled_step hstep hreq ho
    cases hresp
    exact ⟨id, hissued, hcanonical⟩
  · exact nomatch ht

/-- Texts are as different as the ids that they spell. -/
theorem spelled_nodup {c : Crowd} {time : Nat} {moves : List Move}
    (h : (((c.run time moves).1.filterMap Completion.issued?).map Prod.snd).Nodup) :
    ((c.run time moves).1.filterMap Completion.spelled?).Nodup := by
  rw [List.Nodup, List.pairwise_map, List.pairwise_filterMap] at h
  refine List.pairwise_filterMap.mpr (h.imp_of_mem fun {j k} hj hk hne text ht text' ht' => ?_)
  rintro rfl
  obtain ⟨id, hid, hcanonical⟩ := spelled_run hj ht
  obtain ⟨id', hid', hcanonical'⟩ := spelled_run hk ht'
  exact hne _ hid _ hid' (UInt64.toNat_inj.mp (hcanonical.eq hcanonical'))

/-! ## One generator -/

/-- A generator is put into the slot only by a request to install it. -/
theorem put_step {c : Crowd} {time : Nat} {move : Move} {j : RegistryCall} {ref : Fleet.Ref}
    (hj : c.registryCall? time move = some j) (hput : j.call.put? = some ref) :
    ∃ k, (c.step time move).1 = some k ∧ k.request = .install ref := by
  rcases c.step_cases time move with ⟨hp, hs⟩ | ⟨a, todo, lookup, events, mint, hp, hact, hs⟩ |
    ⟨a, todo, report, mint, hp, hact, hs⟩
  · rw [registryCall?_of_idle hp] at hj
    exact nomatch hj
  · rw [registryCall?_of_acting hp hact] at hj
    obtain ⟨⟨call, response⟩, hcall, rfl⟩ := Option.map_eq_some_iff.mp hj
    cases lookup with
    | found ref =>
      cases hcall
      exact nomatch hput
    | _ => exact nomatch hcall
  · rw [registryCall?_of_acting hp hact] at hj
    obtain ⟨⟨call, response⟩, hcall, rfl⟩ := Option.map_eq_some_iff.mp hj
    rw [hs]
    exact ⟨_, rfl, Request.eq_install_of_put? (Step.slotCall?_eq_some hcall) hput⟩

theorem put_run {j : RegistryCall} {ref : Fleet.Ref} (hput : j.call.put? = some ref) :
    ∀ {c : Crowd} {time : Nat} {moves : List Move}, j ∈ c.registryCalls time moves →
      ∃ k ∈ (c.run time moves).1, k.request = .install ref
  | _, _, [], hj => absurd hj List.not_mem_nil
  | c, time, move :: rest, hj => by
    rcases List.mem_append.mp hj with hnow | hlater
    · obtain ⟨k, hk, hreq⟩ := put_step (Option.mem_toList.mp hnow) hput
      exact ⟨k, List.mem_append_left _ (Option.mem_toList.mpr hk), hreq⟩
    · obtain ⟨k, hk, hreq⟩ := put_run hput hlater
      exact ⟨k, List.mem_append_right _ hk, hreq⟩

/-- A generator that is called is one that the caller named, or one that a look-up has found. -/
theorem Tracked.visit_step {c : Crowd} {past : List RegistryCall} {time : Nat}
    (h : c.Tracked past time) {move : Move} {v : Fleet.Visit} (hv : c.visit? time move = some v) :
    (∃ k, (c.step time move).1 = some k ∧ k.request = .nextOf v.ref) ∨
      ∃ j ∈ past, j.response = .generator v.ref := by
  obtain ⟨⟨a, todo⟩, hp, hv⟩ := Option.bind_eq_some_iff.mp hv
  obtain ⟨ref, ht, hv⟩ := Option.bind_eq_some_iff.mp hv
  obtain ⟨g, -, rfl⟩ := Option.map_eq_some_iff.mp hv
  cases hreq : a.request.looksUp with
  | false =>
    -- A call on a generator that the caller has named is the only action of its request.
    rcases hact : c.mint.act a.request a.lookup move.supply with
      ⟨⟨lookup, events⟩ | ⟨report⟩, mint⟩
    · rcases (Mint.Acts.ofAct hact).called_or with ⟨ref', -, hover, -⟩ | ⟨hnone, -⟩
      · exact nomatch hover
      · exact nomatch hnone.symm.trans ht
    · rw [step_of_over hp hact]
      exact .inl ⟨_, rfl, Request.eq_nextOf_of_target? ht hreq⟩
  | true =>
    obtain ⟨-, ended, -, hj⟩ := (h.acting hp).found ref (Request.lookup_of_target? ht hreq)
    exact .inr ⟨_, hj, rfl⟩

theorem Tracked.visit_run {v : Fleet.Visit} :
    ∀ {c : Crowd} {past : List RegistryCall} {time : Nat} {moves : List Move},
      c.Tracked past time → v ∈ c.visits time moves →
        (∃ k ∈ (c.run time moves).1, k.request = .nextOf v.ref) ∨
          ∃ j ∈ past ++ c.registryCalls time moves, j.response = .generator v.ref
  | _, _, _, [], _, hv => absurd hv List.not_mem_nil
  | c, past, time, move :: rest, h, hv => by
    rw [registryCalls, ← List.append_assoc]
    rcases List.mem_append.mp hv with hnow | hlater
    · rcases h.visit_step (Option.mem_toList.mp hnow) with ⟨k, hk, hreq⟩ | ⟨j, hj, hresp⟩
      · exact .inl ⟨k, List.mem_append_left _ (Option.mem_toList.mpr hk), hreq⟩
      · exact .inr ⟨j, List.mem_append_left _ (List.mem_append_left _ hj), hresp⟩
    · rcases (h.step move).visit_run hlater with ⟨k, hk, hreq⟩ | hj
      · exact .inl ⟨k, List.mem_append_right _ hk, hreq⟩
      · exact .inr hj

/-- In a run in which nothing is installed, and every generator that a caller names was handed over
in that run, all calls go to one generator: the one in the slot, or else the fallback. -/
theorem ref_of_mem_visits {c : Crowd} {time : Nat} {moves : List Move} (h : c.Tracked [] time)
    (quiet : ∀ k ∈ (c.run time moves).1, ∀ ref, k.request ≠ .install ref)
    (kept : ∀ k ∈ (c.run time moves).1, ∀ ref, k.request = .nextOf ref →
      ∃ j ∈ (c.run time moves).1, j.HandsOver ref) :
    ∀ v ∈ c.visits time moves, v.ref = c.slot.getD c.fallbackRef := by
  have hput : ∀ j ∈ c.registryCalls time moves, j.call.put? = none := by
    intro j hj
    cases hp : j.call.put? with
    | none => rfl
    | some ref =>
      obtain ⟨k, hk, hreq⟩ := put_run hp hj
      exact absurd hreq (quiet k hk ref)
  have hone {j : RegistryCall} {ref : Fleet.Ref} (hj : j ∈ c.registryCalls time moves)
      (hover : j.response.HandsOver ref) : ref = c.slot.getD c.fallbackRef :=
    (h.replays moves).eq_getD_of_handsOver hover hput hj
  intro v hv
  rcases h.visit_run hv with ⟨k, hk, hreq⟩ | ⟨j, hj, hresp⟩
  · obtain ⟨k', hk', hasked, response, ho, hover⟩ := kept k hk v.ref hreq
    obtain ⟨call, hcall⟩ : ∃ call, k'.request.slotCall? = some call := by
      rcases hasked with hasked | hasked
      · exact ⟨.lookUp, by rw [hasked]; rfl⟩
      · exact ⟨.look, by rw [hasked]; rfl⟩
    rcases (h.recorded moves k' hk').call call hcall with ⟨response', ho', hj⟩ | ⟨ref, -, ho', -⟩
    · rw [ho] at ho'
      cases ho'
      exact hone hj hover
    · rw [ho] at ho'
      exact nomatch ho'
  · exact hone hj (.inl hresp)

/-! ## No id twice -/

theorem soundAt_fleet {c : Crowd}
    (reached : ∀ ref g, c.mint.registry.fleet.get? ref = some g → g.Reached) (ref : Fleet.Ref) :
    c.fleet.SoundAt ref := by
  intro g hg
  rcases Registry.get?_withFallback hg with hmember | ⟨-, rfl⟩
  · exact (reached ref g hmember).sound
  · exact Generator.reached_fallback.sound

/-- **No id leaves a registry twice.** However the requests of its callers overlap, and whatever
they install, name or keep, their ids are those of a history of calls on the generators of the
registry. So:

* if the generators that were called are machines with different marks, no id comes twice, and no
  text either;
* if nothing is installed and callers name only what was handed over to one of them, there is one
  generator, and ids increase;
* a text is the canonical decimal of its id. -/
theorem registry_ids {mint : Mint}
    (reached : ∀ ref g, mint.registry.fleet.get? ref = some g → g.Reached)
    (todos : Array (List Request)) (time : Nat) (moves : List Move) :
    let c := fresh mint todos
    let ended := (c.run time moves).1
    let issued := ended.filterMap Completion.issued?
    let visits := c.visits time moves
    issued = (c.fleet.issues visits).map (fun i => (i.caller, i.id)) ∧
    ((∀ v ∈ visits, ∀ w ∈ visits, c.fleet.ApartAt v.ref w.ref) →
      (issued.map Prod.snd).Nodup ∧ (ended.filterMap Completion.spelled?).Nodup) ∧
    ((∀ k ∈ ended, ∀ ref, k.request ≠ .install ref) →
      (∀ k ∈ ended, ∀ ref, k.request = .nextOf ref → ∃ j ∈ ended, j.HandsOver ref) →
      (∀ v ∈ visits, v.ref = c.slot.getD c.fallbackRef) ∧
        (issued.map Prod.snd).Pairwise (· < ·) ∧
        ∀ caller, ((issued.filter (·.1 == caller)).map Prod.snd).Pairwise (· < ·)) ∧
    ∀ k ∈ ended, k.request = .identifier .snowflake →
      ∀ response, k.report.outcome = .ok response →
        ∃ text id, response = .text text ∧ k.issued? = some (k.caller, id) ∧
          Text.Numeral.Canonical text.toList id.toNat := by
  intro c ended issued visits
  have hsound : ∀ ref, c.fleet.SoundAt ref := soundAt_fleet reached
  have hissued : issued = (c.fleet.issues visits).map fun i => (i.caller, i.id) :=
    c.issued_run time moves
  have hids : issued.map Prod.snd = (c.fleet.issues visits).map Fleet.Issue.id := by
    rw [hissued, List.map_map]
    rfl
  refine ⟨hissued, fun apart => ?_, fun quiet kept => ?_, ?_⟩
  · have hnodup : (issued.map Prod.snd).Nodup := by
      rw [hids]
      refine Fleet.issues_nodup (fun i _ => hsound i.ref) fun i hi j hj => ?_
      obtain ⟨v, hv, -, hvi⟩ := Fleet.visit_of_mem_issues hi
      obtain ⟨w, hw, -, hwj⟩ := Fleet.visit_of_mem_issues hj
      rw [← hvi, ← hwj]
      exact apart v hv w hw
    exact ⟨hnodup, spelled_nodup hnodup⟩
  · have hone : ∀ v ∈ visits, v.ref = c.slot.getD c.fallbackRef :=
      ref_of_mem_visits (tracked_fresh mint todos time) quiet kept
    have hup : issued.Pairwise fun i j => i.2 < j.2 := by
      rw [hissued, List.pairwise_map]
      refine (Fleet.issues_ordered c.fleet visits).imp_of_mem fun {i j} hi hj h => ?_
      obtain ⟨v, hv, -, hvi⟩ := Fleet.visit_of_mem_issues hi
      obtain ⟨w, hw, -, hwj⟩ := Fleet.visit_of_mem_issues hj
      exact h (hsound i.ref) (by rw [← hvi, ← hwj, hone v hv, hone w hw])
    exact ⟨hone, List.pairwise_map.mpr hup, fun caller => List.pairwise_map.mpr (hup.filter _)⟩
  · intro k hk hreq response ho
    obtain ⟨c', time', move, hstep⟩ := step_of_mem_run hk
    exact spelled_step hstep hreq ho

/-- A first caller is served by the fallback, which is then replaced while a second one is still on
its way. -/
theorem registry_ids_once_replaced :
    let mint : Mint :=
      { registry := { fleet := { members := #[{ settings := { worker := 1 } }] } }
        objectIds := { process := [0, 0, 0, 0, 0], length_process := rfl, counter := 0 }
        dice := ⟨1, 1⟩ }
    let c := fresh mint #[[.next, .install 0, .next], [.identifier .snowflake, .next]]
    let moves : List Move :=
      [0, 1, 0, 1, 0, 1, 0, 0, 1, 1, 1, 0, 0].map fun caller => { caller, supply := [.time 5] }
    let ended := (c.run 0 moves).1
    let issued := ended.filterMap Completion.issued?
    (c.visits 0 moves).map (·.ref) = [1, 1, 0, 0] ∧
      ended.filterMap Completion.spelled? = ["20971521"] ∧ (issued.map Prod.snd).Nodup := by
  intro mint c moves ended issued
  have members : ∀ ref g, c.fleet.get? ref = some g →
      ref = 0 ∧ g = { settings := { worker := 1 } } ∨ ref = 1 ∧ g = { settings := {} } := by
    rintro (_ | _ | ref) g h
    · exact .inl ⟨rfl, (Option.some.inj h).symm⟩
    · exact .inr ⟨rfl, (Option.some.inj h).symm⟩
    · exact nomatch h
  have reached : ∀ ref g, mint.registry.fleet.get? ref = some g → g.Reached := by
    rintro (_ | ref) g h
    · cases h
      exact .built (show (({ worker := 1 } : Blueprint).build [.time 0]).outcome = .ok _ from rfl)
    · exact nomatch h
  refine ⟨by decide +kernel, by decide +kernel,
    ((registry_ids reached _ 0 moves).2.1 fun v _ w _ g h hi hj hne => ?_).1⟩
  rcases members _ g hi with ⟨hv, rfl⟩ | ⟨hv, rfl⟩ <;>
    rcases members _ h hj with ⟨hw, rfl⟩ | ⟨hw, rfl⟩
  · exact absurd (hv.trans hw.symm) hne
  · decide
  · decide
  · exact absurd (hv.trans hw.symm) hne
end Crowd
end IdMint

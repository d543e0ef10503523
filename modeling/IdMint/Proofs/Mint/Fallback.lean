import IdMint.Proofs.Mint.Linearization

/-!
# When the fallback is made

Whether there is a fallback cannot be told from the slot. A look-up that has found the slot empty
goes on to make the fallback even if a generator has been installed meanwhile, and then the fallback
is there and was never installed. What can be said is about the look-up that makes it: with its own
first action, whenever that was, it found the slot empty (`Activity.Missed`).

This is an invariant of the requests under way (`Crowd.Missing`), and it looks back in time: a
request that is about to take the fallback has an entry in the past of the schedule at which it
began and the slot was empty. The cells themselves only ever fill. So whoever begins after the slot
is filled never makes a fallback, and a registry in which a generator is installed before anybody
looks one up never has any.
-/

namespace IdMint

open Fleet (Ref)

/-! ## One action -/

namespace Mint.Acts

variable {m m' : Mint} {request : Request} {lookup : Lookup} {supply : List Reading} {step : Step}

/-- **Only a look-up that is about to take the fallback makes it.** -/
theorem fallback?_cases (h : Acts m supply request lookup step m') :
    m'.registry.fallback? = m.registry.fallback? ∨
      request.looksUp = true ∧ lookup = .taking ∧ m.registry.fallback? = none := by
  cases h with
  | aside haside hr => exact .inl (by rw [hr])
  | took hreq =>
    cases hf : m.registry.fallback? with
    | none => exact .inr ⟨hreq, rfl, rfl⟩
    | some ref =>
      left
      rw [Registry.withFallback_of_some hf]
      exact hf
  | _ => exact .inl rfl

/-- A slot that holds a generator is not emptied. -/
theorem installed?_isSome (h : Acts m supply request lookup step m')
    (hs : m.registry.installed?.isSome = true) : m'.registry.installed?.isSome = true := by
  cases h with
  | installed | placed => rfl
  | aside haside hr =>
    rw [hr]
    exact hs
  | took hreq =>
    rw [Registry.installed?_withFallback]
    exact hs
  | _ => exact hs

/-- A generator that is installed is in the slot. -/
theorem installed?_of_install {report : Report Response} {ref : Ref}
    (h : Acts m supply (.install ref) lookup (.over report) m')
    (ho : report.outcome = .ok .done) : m'.registry.installed?.isSome = true := by
  generalize hs : Step.over report = step at h
  cases h with
  | installed => rfl
  | stranger =>
    cases hs
    exact nomatch ho
  | aside haside => exact haside.elim
  | seen hreq | missed hreq | took hreq | placed hreq | beaten hreq => exact nomatch hreq
  | called ht => exact nomatch ht

/-- A look-up that goes on has begun, and goes on to take the fallback only if it has just found the
slot empty. -/
theorem missed_of_later {lookup' : Lookup} {events : List Event}
    (h : Acts m supply request lookup (.later lookup' events) m') :
    lookup' ≠ .loading ∧
      (lookup' = .taking → lookup = .loading ∧ m.registry.installed? = none) := by
  generalize hs : Step.later lookup' events = step at h
  have ofFound {ref : Ref} (he : step = .found request ref) :
      lookup' ≠ .loading ∧
        (lookup' = .taking → lookup = .loading ∧ m.registry.installed? = none) := by
    obtain ⟨rfl, -⟩ := Step.later_eq_found (hs.trans he)
    exact ⟨fun h => (nomatch h), fun h => (nomatch h)⟩
  cases h with
  | seen | placed | beaten => exact ofFound rfl
  | missed hreq hi =>
    cases hs
    exact ⟨fun h => (nomatch h), fun _ => ⟨rfl, hi⟩⟩
  | took =>
    cases hs
    exact ⟨fun h => (nomatch h), fun h => (nomatch h)⟩
  | _ => exact nomatch hs

end Mint.Acts

/-- What a request whether there is a fallback is answered. -/
theorem Mint.act_hasFallback (m : Mint) (lookup : Lookup) (supply : List Reading) :
    m.act .hasFallback lookup supply =
      (.over { outcome := .ok (.hasFallback m.registry.fallback?.isSome) }, m) := rfl

/-! ## Filling -/

namespace Crowd

/-- The fallback, if it has been made. -/
def fallback? (c : Crowd) : Option Ref := c.mint.registry.fallback?

/-- An entry of a schedule makes the fallback. -/
def Fills (c : Crowd) (time : Nat) (move : Move) : Prop :=
  c.fallback? = none ∧ (c.step time move).2.fallback?.isSome = true

theorem acting_of_fills {c : Crowd} {time : Nat} {move : Move} (h : c.Fills time move) :
    ∃ a todo, c.acting? time move = some (a, todo) ∧ a.request.looksUp = true ∧
      a.lookup = .taking := by
  have ofAct {a : Activity} {todo : List Request} {s : Step} {mint : Mint}
      (hp : c.acting? time move = some (a, todo))
      (hact : c.mint.act a.request a.lookup move.supply = (s, mint))
      (hmint : (c.step time move).2.mint = mint) :
      ∃ a todo, c.acting? time move = some (a, todo) ∧ a.request.looksUp = true ∧
        a.lookup = .taking := by
    rcases (Mint.Acts.ofAct hact).fallback?_cases with hsame | ⟨hreq, hl, -⟩
    · have hfilled := h.2
      rw [fallback?, hmint, hsame, show c.mint.registry.fallback? = none from h.1] at hfilled
      exact nomatch hfilled
    · exact ⟨a, todo, hp, hreq, hl⟩
  rcases c.step_cases time move with ⟨-, hs⟩ | ⟨a, todo, lookup, events, mint, hp, hact, hs⟩ |
    ⟨a, todo, report, mint, hp, hact, hs⟩
  · have hfilled := h.2
    rw [hs, h.1] at hfilled
    exact nomatch hfilled
  · exact ofAct hp hact (by rw [hs]; rfl)
  · exact ofAct hp hact (by rw [hs]; rfl)

theorem fallback?_step {c : Crowd} {ref : Ref} (h : c.fallback? = some ref) (time : Nat)
    (move : Move) : (c.step time move).2.fallback? = some ref := by
  rcases c.acts_step time move with hidle | ⟨request, lookup, step, hacts⟩
  · rw [fallback?, hidle]
    exact h
  · rcases hacts.fallback?_cases with hsame | ⟨-, -, hnone⟩
    · rw [fallback?, hsame]
      exact h
    · rw [fallback?, hnone] at h
      exact nomatch h

theorem fallback?_run {ref : Ref} : ∀ {c : Crowd} (time : Nat) (moves : List Move),
    c.fallback? = some ref → (c.run time moves).2.fallback? = some ref
  | _, _, [], h => h
  | _, time, move :: rest, h => fallback?_run (time + 1) rest (fallback?_step h time move)

theorem slot_step {c : Crowd} (h : c.slot.isSome = true) (time : Nat) (move : Move) :
    (c.step time move).2.slot.isSome = true := by
  rcases c.acts_step time move with hidle | ⟨request, lookup, step, hacts⟩
  · rw [slot, hidle]
    exact h
  · exact hacts.installed?_isSome h

theorem slot_run : ∀ {c : Crowd} (time : Nat) (moves : List Move),
    c.slot.isSome = true → (c.run time moves).2.slot.isSome = true
  | _, _, [], h => h
  | _, time, move :: rest, h => slot_run (time + 1) rest (slot_step h time move)

/-- Once a generator has been installed, the slot is filled. -/
theorem slot_of_installed {ref : Ref} {k : Completion} (hreq : k.request = .install ref)
    (ho : k.report.outcome = .ok .done) : ∀ {c : Crowd} {time : Nat} {moves : List Move},
      k ∈ (c.run time moves).1 → (c.run time moves).2.slot.isSome = true
  | _, _, [], hk => absurd hk List.not_mem_nil
  | c, time, move :: rest, hk => by
    rw [run_cons, List.mem_append, Option.mem_toList] at hk
    rw [run_cons]
    rcases hk with hnow | hlater
    · apply slot_run (time + 1) rest
      obtain ⟨a, todo, report, mint, hp, hact, rfl⟩ := over_of_step hnow
      rw [step_of_over hp hact]
      simp only at hreq ho
      rw [hreq] at hact
      exact (Mint.Acts.ofAct hact).installed?_of_install ho
    · exact slot_of_installed hreq ho hlater

/-- A run is the run of its beginning, one entry, and the run of the rest. -/
theorem run_append_cons (c : Crowd) (time : Nat) (earlier : List Move) (move : Move)
    (later : List Move) :
    (c.run time (earlier ++ move :: later)).2 =
      (((c.run time earlier).2.step (time + earlier.length) move).2.run
        (time + earlier.length + 1) later).2 := by
  rw [run_append, run_cons]

/-! ## Look-ups that found nothing -/

end Crowd

/-- The first action of a request, which is now under way, found the slot empty: some time ago its
caller began with it, and nothing was in the slot. -/
def Activity.Missed (c : Crowd) (time : Nat) (past : List Move) (caller : Nat) (a : Activity) :
    Prop :=
  ∃ earlier first between began todo, past = earlier ++ first :: between ∧
    first.caller = caller ∧ a.started = time + earlier.length ∧
    (c.run time earlier).2.acting? (time + earlier.length) first = some (began, todo) ∧
    began.request = a.request ∧ began.lookup = .loading ∧ began.started = a.started ∧
    (c.run time earlier).2.slot = none

namespace Crowd

/-- After some entries of a schedule, every request under way has begun, and if it is about to take
the fallback, its first action found the slot empty. -/
def Missing (c : Crowd) (time : Nat) (past : List Move) : Prop :=
  ∀ (i : Nat) (caller : Caller) (a : Activity), (c.run time past).2.callers[i]? = some caller →
    caller.doing? = some a →
      a.lookup ≠ .loading ∧ (a.lookup = .taking → a.Missed c time past i)

theorem missing_fresh (mint : Mint) (todos : Array (List Request)) (time : Nat) :
    (fresh mint todos).Missing time [] := by
  intro i caller a hc ha
  rw [run, fresh, Array.getElem?_map] at hc
  obtain ⟨todo, -, rfl⟩ := Option.map_eq_some_iff.mp hc
  cases ha

namespace Missing

variable {c : Crowd} {time : Nat} {past : List Move}

/-- An action that is about to take the fallback is that of a request which found the slot empty. -/
theorem acting (h : c.Missing time past) {move : Move} {a : Activity} {todo : List Request}
    (hp : (c.run time past).2.acting? (time + past.length) move = some (a, todo))
    (hl : a.lookup = .taking) : a.Missed c time past move.caller := by
  obtain ⟨caller, hc, ha | ⟨-, hloading, -⟩⟩ := acting?_cases hp
  · exact (h _ _ _ hc ha).2 hl
  · rw [hl] at hloading
    exact nomatch hloading

/-- **Step.** Only the caller who acts has anything new to show, and if it goes on to take the
fallback now, then this was its first action. -/
theorem step (h : c.Missing time past) (move : Move) : c.Missing time (past ++ [move]) := by
  have hmono {i : Nat} {a : Activity} (ha : a.lookup ≠ .loading ∧
      (a.lookup = .taking → a.Missed c time past i)) :
      a.lookup ≠ .loading ∧ (a.lookup = .taking → a.Missed c time (past ++ [move]) i) := by
    refine ⟨ha.1, ?_⟩
    intro hl
    obtain ⟨earlier, first, between, began, todo, rfl, hrest⟩ := ha.2 hl
    exact ⟨earlier, first, between ++ [move], began, todo, by simp, hrest⟩
  intro i caller b hc hb
  rw [run_append_cons, run] at hc
  rcases (c.run time past).2.step_cases (time + past.length) move with ⟨-, hs⟩ |
    ⟨a, todo, lookup, events, mint, hp, hact, hs⟩ | ⟨a, todo, report, mint, hp, hact, hs⟩
  · rw [hs] at hc
    exact hmono (h i caller b hc hb)
  · rw [hs] at hc
    rcases doing?_after hc with ⟨rfl, hd⟩ | hold
    · rw [hd] at hb
      cases hb
      obtain ⟨hbegun, hmissed⟩ := (Mint.Acts.ofAct hact).missed_of_later
      refine ⟨hbegun, ?_⟩
      intro hl
      obtain ⟨hloading, hempty⟩ := hmissed hl
      obtain ⟨caller', hc', hdoing | ⟨-, -, hstarted⟩⟩ := acting?_cases hp
      · exact absurd hloading (h _ _ _ hc' hdoing).1
      · exact ⟨past, move, [], a, todo, rfl, rfl, hstarted, hp, rfl, hloading, rfl, hempty⟩
    · exact hmono (h i caller b hold hb)
  · rw [hs] at hc
    rcases doing?_after hc with ⟨rfl, hd⟩ | hold
    · rw [hd] at hb
      exact nomatch hb
    · exact hmono (h i caller b hold hb)

theorem run : ∀ {past : List Move} (later : List Move), c.Missing time past →
    c.Missing time (past ++ later)
  | past, [], h => by
    rw [List.append_nil]
    exact h
  | past, move :: rest, h => by
    have hrest := (h.step move).run rest
    rw [List.append_assoc] at hrest
    exact hrest

end Missing

theorem missing_run (mint : Mint) (todos : Array (List Request)) (time : Nat)
    (moves : List Move) : (fresh mint todos).Missing time moves :=
  (missing_fresh mint todos time).run moves

/-! ## Entries that make the fallback -/

/-- The entry that comes after these makes the fallback. -/
def FillsAfter (c : Crowd) (time : Nat) (earlier : List Move) (move : Move) : Prop :=
  (c.run time earlier).2.Fills (time + earlier.length) move

variable {c : Crowd} {time : Nat} {moves earlier between later rest : List Move} {move first : Move}

/-- Once the fallback is made, no entry makes it. -/
theorem FillsAfter.not_again (h : c.FillsAfter time earlier move) (between : List Move)
    (again : Move) : ¬ c.FillsAfter time (earlier ++ move :: between) again := by
  rintro ⟨hnone, -⟩
  obtain ⟨ref, hfilled⟩ := Option.isSome_iff_exists.mp h.2
  rw [run_append_cons, fallback?_run _ between hfilled] at hnone
  exact nomatch hnone

theorem FillsAfter.eq_nil (h : c.FillsAfter time earlier move) {more : List Move} {again : Move}
    (hmoves : move :: later = more ++ again :: rest)
    (hagain : c.FillsAfter time (earlier ++ more) again) : more = [] := by
  cases more with
  | nil => rfl
  | cons next more =>
    rw [List.cons_append, List.cons.injEq] at hmoves
    exact absurd (hmoves.1 ▸ hagain) (h.not_again more again)

theorem FillsAfter.missed (hmissing : c.Missing time earlier)
    (h : c.FillsAfter time earlier move) :
    ∃ a todo, (c.run time earlier).2.acting? (time + earlier.length) move = some (a, todo) ∧
      a.request.looksUp = true ∧ a.Missed c time earlier move.caller := by
  obtain ⟨a, todo, hp, hreq, hl⟩ := acting_of_fills h
  exact ⟨a, todo, hp, hreq, hmissing.acting hp hl⟩

/-- If there is a fallback at the end, one entry has made it. -/
theorem exists_fillsAfter : ∀ {c : Crowd} {time : Nat} {moves : List Move}, c.fallback? = none →
    (c.run time moves).2.fallback?.isSome = true →
      ∃ earlier move later, moves = earlier ++ move :: later ∧ c.FillsAfter time earlier move
  | c, time, [], hnone, hsome => by
    rw [run, hnone] at hsome
    exact nomatch hsome
  | c, time, move :: rest, hnone, hsome => by
    cases hf : (c.step time move).2.fallback? with
    | some ref =>
      refine ⟨[], move, rest, rfl, hnone, ?_⟩
      rw [run, List.length_nil, Nat.add_zero, hf]
      rfl
    | none =>
      rw [run_cons] at hsome
      obtain ⟨earlier, filling, later, rfl, hfills⟩ := exists_fillsAfter hf hsome
      refine ⟨move :: earlier, filling, later, rfl, ?_⟩
      rw [FillsAfter, run_cons, List.length_cons, Nat.add_comm earlier.length, ← Nat.add_assoc]
      exact hfills

/-- A request that began when the slot was empty began before it was filled. -/
theorem exists_eq_of_slot {began : List Move} (h : began ++ first :: between = earlier ++ rest)
    (hempty : (c.run time began).2.slot = none)
    (hfilled : (c.run time earlier).2.slot.isSome = true) :
    ∃ between, earlier = began ++ first :: between := by
  have hnot (more : List Move) : began ≠ earlier ++ more := by
    rintro rfl
    have hstill := slot_run (time + earlier.length) more hfilled
    rw [← run_append, hempty] at hstill
    exact nomatch hstill
  rcases List.append_eq_append_iff.mp h with ⟨more, hearlier, hrest⟩ | ⟨more, hbegan, -⟩
  · cases more with
    | nil =>
      rw [List.append_nil] at hearlier
      exact absurd (hearlier ▸ (List.append_nil _).symm) (hnot [])
    | cons move more =>
      rw [List.cons_append, List.cons.injEq] at hrest
      exact ⟨more, by rw [hearlier, hrest.1]⟩
  · exact absurd hbegan (hnot more)

theorem FillsAfter.begun_before (hmissing : c.Missing time (earlier ++ between))
    (hfilled : (c.run time earlier).2.slot.isSome = true)
    (h : c.FillsAfter time (earlier ++ between) move) :
    ∃ a todo, (c.run time (earlier ++ between)).2.acting? (time + (earlier ++ between).length) move =
        some (a, todo) ∧ a.started < time + earlier.length := by
  obtain ⟨a, todo, hp, -, began, first, between', began', todo', hpast, -, hstarted, -, -, -, -,
    hempty⟩ := h.missed hmissing
  obtain ⟨more, hearlier⟩ := exists_eq_of_slot hpast.symm hempty hfilled
  refine ⟨a, todo, hp, ?_⟩
  rw [hstarted, hearlier, List.length_append, List.length_cons]
  omega

/-- No action of these entries is that of a request that looks a generator up. -/
def NoneLookedUp (c : Crowd) (time : Nat) (moves : List Move) : Prop :=
  ∀ earlier move later, moves = earlier ++ move :: later → ∀ a todo,
    (c.run time earlier).2.acting? (time + earlier.length) move = some (a, todo) →
      a.request.looksUp = false

/-- If the slot is filled before anyone looks a generator up, the fallback is not made at all. -/
theorem fallback?_of_slot (hmissing : ∀ past, c.Missing time past) (hnone : c.fallback? = none)
    (hfilled : (c.run time earlier).2.slot.isSome = true) (hlooked : c.NoneLookedUp time earlier) :
    (c.run time (earlier ++ later)).2.fallback? = none := by
  apply Option.eq_none_iff_forall_ne_some.mpr
  intro ref hsome
  obtain ⟨before, move, after, hmoves, hfills⟩ :=
    exists_fillsAfter hnone (Option.isSome_iff_exists.mpr ⟨ref, hsome⟩)
  obtain ⟨a, todo, -, hlooks, began, first, between, begun, todo', rfl, -, -, hacting, hsame, -, -,
    hempty⟩ := hfills.missed (hmissing before)
  rw [List.append_assoc, List.cons_append] at hmoves
  -- The request that makes it has begun in vain, so before the slot was filled.
  obtain ⟨more, hearlier⟩ := exists_eq_of_slot hmoves.symm hempty hfilled
  have hno := hlooked began first more hearlier begun todo' hacting
  rw [hsame, hlooks] at hno
  exact nomatch hno

/-! ## Asking for it -/

end Crowd

/-- A request whether there is a fallback was answered so. -/
def Completion.SaysFallback (k : Completion) (made : Bool) : Prop :=
  k.request = .hasFallback ∧ k.report.outcome = .ok (.hasFallback made)

namespace Crowd

/-- What is answered is what is the case just then. -/
theorem saysFallback_step {c : Crowd} {time : Nat} {move : Move} {k : Completion} {made : Bool}
    (hk : (c.step time move).1 = some k) (hanswer : k.SaysFallback made) :
    made = c.fallback?.isSome ∧ (c.step time move).2.fallback? = c.fallback? := by
  obtain ⟨a, todo, report, mint, hp, hact, rfl⟩ := over_of_step hk
  obtain ⟨hreq, ho⟩ := hanswer
  simp only at hreq ho
  rw [step_of_over hp hact]
  rw [hreq, Mint.act_hasFallback, Prod.mk.injEq, Step.over.injEq] at hact
  obtain ⟨rfl, rfl⟩ := hact
  simp only [Except.ok.injEq, Response.hasFallback.injEq] at ho
  exact ⟨ho.symm, rfl⟩

theorem eq_true_of_saysFallback {k : Completion} {made : Bool} (hanswer : k.SaysFallback made) :
    ∀ {c : Crowd} {time : Nat} {moves : List Move}, c.fallback?.isSome = true →
      k ∈ (c.run time moves).1 → made = true
  | _, _, [], _, hk => absurd hk List.not_mem_nil
  | c, time, move :: rest, hsome, hk => by
    rw [run_cons, List.mem_append, Option.mem_toList] at hk
    rcases hk with hnow | hlater
    · rw [(saysFallback_step hnow hanswer).1, hsome]
    · obtain ⟨ref, href⟩ := Option.isSome_iff_exists.mp hsome
      have hstill := fallback?_step href time move
      exact eq_true_of_saysFallback hanswer (by rw [hstill]; rfl) hlater

theorem eq_false_of_saysFallback {k : Completion} {made : Bool} (hanswer : k.SaysFallback made) :
    ∀ {c : Crowd} {time : Nat} {moves : List Move}, (c.run time moves).2.fallback? = none →
      k ∈ (c.run time moves).1 → made = false
  | _, _, [], _, hk => absurd hk List.not_mem_nil
  | c, time, move :: rest, hnone, hk => by
    rw [run_cons, List.mem_append, Option.mem_toList] at hk
    rw [run_cons] at hnone
    rcases hk with hnow | hlater
    · obtain ⟨hmade, hsame⟩ := saysFallback_step hnow hanswer
      cases hf : c.fallback? with
      | none => rw [hmade, hf]; rfl
      | some ref =>
        rw [fallback?_run _ rest (hsame.trans hf)] at hnone
        exact nomatch hnone
    · exact eq_false_of_saysFallback hanswer hnone hlater

/-- **It never goes back to false.** -/
theorem saysFallback_stays : ∀ (c : Crowd) (time : Nat) (moves : List Move),
    (c.run time moves).1.Pairwise fun j k =>
      ∀ made, j.SaysFallback true → k.SaysFallback made → made = true
  | _, _, [] => .nil
  | c, time, move :: rest => by
    rw [run_cons]
    refine List.pairwise_append.mpr ⟨?_, saysFallback_stays _ _ rest, ?_⟩
    · cases (c.step time move).1 with
      | none => exact .nil
      | some k => exact List.pairwise_singleton _ _
    · intro j hj k hk made hanswer hanswer'
      obtain ⟨hmade, hsame⟩ := saysFallback_step (Option.mem_toList.mp hj) hanswer
      exact eq_true_of_saysFallback hanswer' (by rw [hsame, ← hmade]) hk

/-! ## A whole schedule -/

/-- What is to be known of the fallback over a schedule. -/
structure FallbackByNeed (c : Crowd) (time : Nat) (moves : List Move) : Prop where
  /-- The fallback is never replaced. -/
  kept : ∀ earlier later ref, moves = earlier ++ later →
    (c.run time earlier).2.fallback? = some ref → (c.run time moves).2.fallback? = some ref
  /-- At most one entry makes it. -/
  once : ∀ earlier move later earlier' move' later', moves = earlier ++ move :: later →
    moves = earlier' ++ move' :: later' → c.FillsAfter time earlier move →
      c.FillsAfter time earlier' move' → earlier = earlier'
  /-- That is the entry of a request that looks up, and whose first action found the slot empty. -/
  missed : ∀ earlier move later, moves = earlier ++ move :: later →
    c.FillsAfter time earlier move →
      ∃ a todo, (c.run time earlier).2.acting? (time + earlier.length) move = some (a, todo) ∧
        a.request.looksUp = true ∧ a.Missed c time earlier move.caller
  /-- Once the slot is filled, only a request that began before makes the fallback. -/
  begunBefore : ∀ earlier between move later, moves = earlier ++ between ++ move :: later →
    (c.run time earlier).2.slot.isSome = true → c.FillsAfter time (earlier ++ between) move →
      ∃ a todo, (c.run time (earlier ++ between)).2.acting?
          (time + (earlier ++ between).length) move = some (a, todo) ∧
        a.started < time + earlier.length
  /-- Whoever asks for it after another was told that it is there is told so too. -/
  stays : (c.run time moves).1.Pairwise fun j k =>
    ∀ made, j.SaysFallback true → k.SaysFallback made → made = true
  /-- If a generator is installed before anyone looks one up, there never is a fallback. -/
  never : c.fallback? = none → ∀ earlier later k ref, moves = earlier ++ later →
    k ∈ (c.run time earlier).1 → k.request = .install ref → k.report.outcome = .ok .done →
      c.NoneLookedUp time earlier →
        (c.run time moves).2.fallback? = none ∧
          ∀ j ∈ (c.run time moves).1, ∀ made, j.SaysFallback made → made = false

theorem fallbackByNeed (mint : Mint) (todos : Array (List Request)) (time : Nat)
    (moves : List Move) : (fresh mint todos).FallbackByNeed time moves := by
  have hmissing := missing_run mint todos time
  generalize fresh mint todos = c at hmissing
  refine ⟨?_, ?_, ?_, ?_, saysFallback_stays c time moves, ?_⟩
  · rintro earlier later ref rfl href
    rw [run_append]
    exact fallback?_run _ later href
  · intro earlier move later earlier' move' later' hmoves hmoves' hfills hfills'
    rcases List.append_eq_append_iff.mp (hmoves.symm.trans hmoves') with
      ⟨more, rfl, hlater⟩ | ⟨more, rfl, hlater⟩
    · rw [hfills.eq_nil hlater hfills', List.append_nil]
    · rw [hfills'.eq_nil hlater hfills, List.append_nil]
  · intro earlier move later _ hfills
    exact hfills.missed (hmissing earlier)
  · intro earlier between move later _ hfilled hfills
    exact hfills.begun_before (hmissing (earlier ++ between)) hfilled
  · rintro hnone earlier later k ref rfl hk hreq ho hlooked
    have hend : (c.run time (earlier ++ later)).2.fallback? = none :=
      fallback?_of_slot hmissing hnone (slot_of_installed hreq ho hk) hlooked
    exact ⟨hend, fun j hj made hanswer => eq_false_of_saysFallback hanswer hend hj⟩

/-- A first caller finds the slot empty and makes the fallback, though a second one has installed a
generator meanwhile. The fallback is there and is never installed. -/
example :
    let mint : Mint :=
      { registry := { fleet := { members := #[{ settings := { worker := 1 } }] } }
        objectIds := { process := [0, 0, 0, 0, 0], length_process := rfl, counter := 0 }
        dice := ⟨1, 1⟩ }
    let c := (fresh mint #[[.next], [.install 0]]).run 0
      ([0, 1, 0, 0, 0].map fun caller => { caller, supply := [.time 5] })
    c.1.map (·.request) = [.install 0, .next] ∧ c.2.slot = some 0 ∧ c.2.fallback? = some 1 := by
  decide +kernel

end Crowd
end IdMint

import IdMint.Mint.Callers
import IdMint.Proofs.Registry.Slot

/-!
# What an action can be

Everything that is proved of callers who overlap is proved of one action and then of a schedule, so
what one action can be is said once (`Mint.Acts`) and nothing later opens `Mint.act`. It is one of
a handful of things: a generator put into the registry or the registry looked at, one of the three
actions of a look-up, a call on a generator, or a request that does not concern generators at all.

`Crowd.step_cases` does the same for an entry of a schedule. It is idle, or a caller goes on with a
request, or ends one.
-/

namespace IdMint

/-! ## One action -/

namespace Request

/-- The generator that the action of a request is a call on, if it is one. -/
def target? : Request → Lookup → Option Fleet.Ref
  | .nextOf ref, _ => some ref
  | .next, .found ref => some ref
  | .identifier .snowflake, .found ref => some ref
  | _, _ => none

/-- The words in which an id answers a request. -/
def say : Request → UInt64 → Response
  | .identifier _, id => .text (toString id)
  | _, id => .id id

/-- Requests that have nothing to do with generators, or ask only whether there is a fallback. -/
def Aside : Request → Prop
  | .hasFallback | .identifier .random | .identifier .objectId => True
  | _ => False

theorem looksUp_of_aside {request : Request} (h : request.Aside) : request.looksUp = false := by
  cases request with
  | hasFallback => rfl
  | identifier kind =>
    cases kind with
    | snowflake => exact h.elim
    | _ => rfl
  | _ => exact h.elim

theorem target?_of_aside {request : Request} (h : request.Aside) (lookup : Lookup) :
    request.target? lookup = none := by
  cases request with
  | hasFallback => rfl
  | identifier kind =>
    cases kind with
    | snowflake => exact h.elim
    | _ => rfl
  | _ => exact h.elim

theorem lookup_of_target? {request : Request} {lookup : Lookup} {ref : Fleet.Ref}
    (h : request.target? lookup = some ref) (hreq : request.looksUp = true) :
    lookup = .found ref := by
  cases lookup with
  | found found =>
    cases request with
    | next => exact congrArg Lookup.found (Option.some.inj h)
    | identifier kind =>
      cases kind with
      | snowflake => exact congrArg Lookup.found (Option.some.inj h)
      | _ => exact nomatch hreq
    | generator => exact nomatch h
    | _ => exact nomatch hreq
  | _ =>
    cases request with
    | identifier kind => cases kind <;> exact nomatch h
    | nextOf ref => exact nomatch hreq
    | _ => exact nomatch h

theorem eq_nextOf_of_target? {request : Request} {lookup : Lookup} {ref : Fleet.Ref}
    (h : request.target? lookup = some ref) (hreq : request.looksUp = false) :
    request = .nextOf ref := by
  cases request with
  | nextOf held => exact congrArg nextOf (Option.some.inj h)
  | identifier kind =>
    cases kind with
    | snowflake => exact nomatch hreq
    | _ => exact nomatch h
  | next => exact nomatch hreq
  | _ => exact nomatch h

theorem target?_of_looksUp {request : Request} {lookup : Lookup} (hreq : request.looksUp = true)
    (hl : ∀ ref, lookup ≠ .found ref) : request.target? lookup = none := by
  cases h : request.target? lookup with
  | none => rfl
  | some ref => exact absurd (lookup_of_target? h hreq) (hl ref)

end Request

/-- A request whose look-up has found a generator: that is the answer if the generator is all that
was asked for, and otherwise the call on it comes next. -/
def Step.found (request : Request) (ref : Fleet.Ref) : Step :=
  match request with
  | .generator => .over { outcome := .ok (.generator ref) }
  | _ => .later (.found ref) []

namespace Mint

/-- All that one action can be: whose request it belongs to and how far that has come, what becomes
of the request, and the mint afterwards. -/
inductive Acts (m : Mint) (supply : List Reading) : Request → Lookup → Step → Mint → Prop
  | installed {lookup : Lookup} {ref : Fleet.Ref} {g : Generator} :
      m.registry.fleet.get? ref = some g →
      Acts m supply (.install ref) lookup
        (.over { outcome := .ok .done, events := [.installed g.settings] })
        { m with registry := m.registry.install ref }
  | stranger {lookup : Lookup} {ref : Fleet.Ref} : m.registry.fleet.get? ref = none →
      Acts m supply (.install ref) lookup (.over { outcome := .error .unanswered }) m
  | current {lookup : Lookup} :
      Acts m supply .current lookup
        (.over { outcome := .ok (.current m.registry.installed?) }) m
  | aside {request : Request} {lookup : Lookup} {report : Report Response} {m' : Mint} :
      request.Aside → m'.registry = m.registry →
      Acts m supply request lookup (.over report) m'
  | seen {request : Request} {ref : Fleet.Ref} : request.looksUp = true →
      m.registry.installed? = some ref →
      Acts m supply request .loading (.found request ref) m
  | missed {request : Request} : request.looksUp = true → m.registry.installed? = none →
      Acts m supply request .loading (.later .taking []) m
  | took {request : Request} {events : List Event} : request.looksUp = true →
      Acts m supply request .taking (.later (.offering m.registry.fallbackRef) events)
        { m with registry := m.registry.withFallback }
  | placed {request : Request} {ref : Fleet.Ref} : request.looksUp = true →
      m.registry.installed? = none →
      Acts m supply request (.offering ref) (.found request ref)
        { m with registry := m.registry.install ref }
  | beaten {request : Request} {offered ref : Fleet.Ref} : request.looksUp = true →
      m.registry.installed? = some ref →
      Acts m supply request (.offering offered) (.found request ref) m
  | called {request : Request} {lookup : Lookup} {ref : Fleet.Ref} :
      request.target? lookup = some ref →
      Acts m supply request lookup (.over (m.callOn ref supply request.say).1)
        (m.callOn ref supply request.say).2
  | repeated {ref : Fleet.Ref} :
      Acts m supply .generator (.found ref) (.over { outcome := .ok (.generator ref) }) m

theorem Acts.ofInstall (m : Mint) (ref : Fleet.Ref) (lookup : Lookup) (supply : List Reading) :
    Acts m supply (.install ref) lookup (.over (m.install ref).1) (m.install ref).2 := by
  unfold install
  split
  · rename_i h
    exact .stranger h
  · rename_i h
    exact .installed h

theorem act_of_found {m : Mint} {request : Request} {lookup : Lookup} {supply : List Reading}
    {ref : Fleet.Ref} {registry : Registry} (h : request.looksUp = true)
    (hadv : lookup.advance m.registry = (.found ref, [], registry))
    (hl : ∀ ref, lookup ≠ .found ref) :
    m.act request lookup supply = (.found request ref, { m with registry }) := by
  unfold act
  rw [if_pos h]
  cases lookup with
  | found ref => exact absurd rfl (hl ref)
  | _ =>
    simp only [hadv]
    cases request <;> rfl

theorem act_of_later {m : Mint} {request : Request} {lookup lookup' : Lookup}
    {supply : List Reading} {events : List Event} {registry : Registry}
    (h : request.looksUp = true)
    (hadv : lookup.advance m.registry = (lookup', events, registry))
    (hl : ∀ ref, lookup ≠ .found ref) (hl' : ∀ ref, lookup' ≠ .found ref) :
    m.act request lookup supply = (.later lookup' events, { m with registry }) := by
  unfold act
  rw [if_pos h]
  cases lookup with
  | found ref => exact absurd rfl (hl ref)
  | _ =>
    simp only [hadv]
    cases lookup' with
    | found ref => exact absurd rfl (hl' ref)
    | _ => cases request <;> rfl

/-- An action of a look-up that has not found a generator yet. -/
theorem Acts.ofLookup (m : Mint) {request : Request} (h : request.looksUp = true)
    (lookup : Lookup) (supply : List Reading) (hl : ∀ ref, lookup ≠ .found ref) :
    Acts m supply request lookup (m.act request lookup supply).1
      (m.act request lookup supply).2 := by
  cases lookup with
  | loading =>
    cases hi : m.registry.installed? with
    | none =>
      have hadv : Lookup.loading.advance m.registry = (.taking, [], m.registry) := by
        simp only [Lookup.advance, hi]
      rw [act_of_later h hadv hl fun ref hne => nomatch hne]
      exact .missed h hi
    | some ref =>
      have hadv : Lookup.loading.advance m.registry = (.found ref, [], m.registry) := by
        simp only [Lookup.advance, hi]
      rw [act_of_found h hadv hl]
      exact .seen h hi
  | taking =>
    have hadv : Lookup.taking.advance m.registry = (.offering m.registry.fallbackRef,
        m.registry.takeFallback.2.1, m.registry.withFallback) := rfl
    rw [act_of_later h hadv hl fun ref hne => nomatch hne]
    exact .took h
  | offering offered =>
    cases hi : m.registry.installed? with
    | none =>
      have hadv : (Lookup.offering offered).advance m.registry =
          (.found offered, [], m.registry.install offered) := by
        simp only [Lookup.advance, Registry.offer, hi]
      rw [act_of_found h hadv hl]
      exact .placed h hi
    | some ref =>
      have hadv : (Lookup.offering offered).advance m.registry =
          (.found ref, [], m.registry) := by
        simp only [Lookup.advance, Registry.offer, hi]
      rw [act_of_found h hadv hl]
      exact .beaten h hi
  | found ref => exact absurd rfl (hl ref)

theorem Acts.ofLooksUp (m : Mint) {request : Request} (h : request.looksUp = true)
    (lookup : Lookup) (supply : List Reading) :
    Acts m supply request lookup (m.act request lookup supply).1
      (m.act request lookup supply).2 := by
  cases lookup with
  | found ref =>
    cases request with
    | generator => exact .repeated
    | next => exact .called rfl
    | identifier kind =>
      cases kind with
      | snowflake => exact .called rfl
      | _ => exact nomatch h
    | _ => exact nomatch h
  | _ => exact .ofLookup m h _ supply fun ref hne => nomatch hne

theorem act_of_perform (m : Mint) {request : Request} (h : request.looksUp = false)
    (lookup : Lookup) (supply : List Reading) :
    m.act request lookup supply =
      (.over (m.perform request supply).1, (m.perform request supply).2) := by
  unfold act
  rw [if_neg (by rw [h]; exact Bool.false_ne_true)]

theorem registry_token (m : Mint) (length : Nat) :
    (m.token length).2.registry = m.registry := rfl

theorem registry_objectId (m : Mint) (supply : List Reading) :
    (m.objectId supply).2.registry = m.registry := by
  unfold objectId
  split <;> rfl

theorem registry_perform (m : Mint) {request : Request} (h : request.Aside)
    (supply : List Reading) : (m.perform request supply).2.registry = m.registry := by
  cases request with
  | hasFallback => rfl
  | identifier kind =>
    cases kind with
    | snowflake => exact h.elim
    | random =>
      have ht := m.registry_token IdKind.randomLength
      unfold perform
      -- The token is kept closed, or sixteen throws of the dice would be worked out here.
      generalize m.token IdKind.randomLength = drawn at ht ⊢
      exact ht
    | objectId => exact m.registry_objectId supply
  | _ => exact h.elim

theorem Acts.ofAside (m : Mint) (request : Request) (h : request.Aside) (lookup : Lookup)
    (supply : List Reading) :
    Acts m supply request lookup (m.act request lookup supply).1
      (m.act request lookup supply).2 := by
  rw [m.act_of_perform (Request.looksUp_of_aside h)]
  exact .aside h (m.registry_perform h supply)

theorem acts (m : Mint) (request : Request) (lookup : Lookup) (supply : List Reading) :
    Acts m supply request lookup (m.act request lookup supply).1
      (m.act request lookup supply).2 := by
  cases request with
  | install ref => exact .ofInstall m ref lookup supply
  | current => exact .current
  | hasFallback => exact .ofAside m .hasFallback trivial lookup supply
  | nextOf ref => exact .called rfl
  | generator => exact .ofLooksUp m rfl lookup supply
  | next => exact .ofLooksUp m rfl lookup supply
  | identifier kind =>
    cases kind with
    | snowflake => exact .ofLooksUp m rfl lookup supply
    | random => exact .ofAside m (.identifier .random) trivial lookup supply
    | objectId => exact .ofAside m (.identifier .objectId) trivial lookup supply

/-- **An action is one of these.** -/
theorem Acts.ofAct {m m' : Mint} {request : Request} {lookup : Lookup} {supply : List Reading}
    {step : Step} (h : m.act request lookup supply = (step, m')) :
    Acts m supply request lookup step m' := by
  have hacts := m.acts request lookup supply
  rwa [h] at hacts

theorem callOn_of_get? {m : Mint} {ref : Fleet.Ref} {g : Generator}
    (h : m.registry.fleet.get? ref = some g) (supply : List Reading) (say : UInt64 → Response) :
    (m.callOn ref supply say).1 = (m.registry.withFallback.fleet.call ref supply).1.map say ∧
      (m.callOn ref supply say).2.registry.withFallback.fleet =
        (m.registry.withFallback.fleet.call ref supply).2 := by
  rw [Registry.withFallback_call h]
  exact ⟨rfl, rfl⟩

theorem callOn_of_none {m : Mint} {ref : Fleet.Ref} (h : m.registry.fleet.get? ref = none)
    (supply : List Reading) (say : UInt64 → Response) :
    (m.callOn ref supply say).1.outcome = .error .unanswered ∧
      (m.callOn ref supply say).2 = m := by
  have hcall : m.registry.fleet.call ref supply =
      ({ outcome := .error .unanswered }, m.registry.fleet) := by
    simp only [Fleet.call, h]
  unfold callOn
  rw [hcall]
  exact ⟨rfl, rfl⟩

/-! ### What it does to the registry -/

namespace Acts

variable {m m' : Mint} {request : Request} {lookup : Lookup} {supply : List Reading} {step : Step}

theorem fallbackRef_eq (h : Acts m supply request lookup step m') :
    m'.registry.fallbackRef = m.registry.fallbackRef := by
  cases h with
  | installed hg => exact Registry.fallbackRef_install _ _
  | aside haside hr => rw [hr]
  | took hreq => exact Registry.fallbackRef_withFallback _
  | placed hreq hi => exact Registry.fallbackRef_install _ _
  | called ht => exact Registry.fallbackRef_call _ _ _
  | _ => rfl

/-- **An action either calls a generator or leaves all of them as they are**, save that it may make
the fallback. To those who call generators the fallback may as well have been there all the time. -/
theorem called_or (h : Acts m supply request lookup step m') :
    (∃ ref, request.target? lookup = some ref ∧
      step = .over (m.callOn ref supply request.say).1 ∧
      m' = (m.callOn ref supply request.say).2) ∨
    request.target? lookup = none ∧
      m'.registry.withFallback.fleet = m.registry.withFallback.fleet := by
  cases h with
  | installed hg => exact .inr ⟨rfl, Registry.fleet_withFallback_install _ _⟩
  | aside haside hr => exact .inr ⟨Request.target?_of_aside haside _, by rw [hr]⟩
  | seen hreq hi => exact .inr ⟨Request.target?_of_looksUp hreq fun _ h => (nomatch h), rfl⟩
  | missed hreq hi => exact .inr ⟨Request.target?_of_looksUp hreq fun _ h => (nomatch h), rfl⟩
  | took hreq =>
    refine .inr ⟨Request.target?_of_looksUp hreq fun _ h => (nomatch h), ?_⟩
    rw [Registry.withFallback_withFallback]
  | placed hreq hi =>
    exact .inr ⟨Request.target?_of_looksUp hreq fun _ h => (nomatch h),
      Registry.fleet_withFallback_install _ _⟩
  | beaten hreq hi => exact .inr ⟨Request.target?_of_looksUp hreq fun _ h => (nomatch h), rfl⟩
  | called ht => exact .inl ⟨_, ht, rfl, rfl⟩
  | _ => exact .inr ⟨rfl, rfl⟩

theorem keeps (h : Acts m supply request lookup step m') :
    m.registry.fleet.Keeps m'.registry.fleet := by
  cases h with
  | aside haside hr => exact hr ▸ .refl _
  | took hreq => exact m.registry.keeps_withFallback
  | called ht => exact Fleet.keeps_call _ _ _
  | _ => exact .refl _

theorem withFallback_keeps (h : Acts m supply request lookup step m') :
    m'.registry.withFallback.fleet.Keeps m.registry.withFallback.fleet := by
  rcases h.called_or with ⟨ref, -, -, rfl⟩ | ⟨-, hsame⟩
  · cases hg : m.registry.fleet.get? ref with
    | none =>
      rw [(callOn_of_none hg supply request.say).2]
      exact .refl _
    | some g =>
      rw [(callOn_of_get? hg supply request.say).2]
      exact Fleet.call_keeps _ _ _
  · rw [hsame]
    exact .refl _

end Acts
end Mint

/-! ## One entry of a schedule -/

namespace Crowd

/-- Callers who have their requests before them and have not begun. -/
def fresh (mint : Mint) (todos : Array (List Request)) : Crowd :=
  { mint, callers := todos.map fun todo => { todo } }

/-- What the caller who is to act does, if there is anything left to do. -/
def acting? (c : Crowd) (time : Nat) (move : Move) : Option (Activity × List Request) :=
  (c.callers[move.caller]?).bind fun caller => caller.pick time

/-- The crowd after an action: the mint, and what the caller has left. -/
def after (c : Crowd) (caller : Nat) (todo : List Request) (doing? : Option Activity)
    (mint : Mint) : Crowd :=
  { mint, callers := c.callers.setIfInBounds caller { todo, doing? } }

theorem step_of_idle {c : Crowd} {time : Nat} {move : Move} (hp : c.acting? time move = none) :
    c.step time move = (none, c) := by
  rw [acting?] at hp
  simp only [step, hp]

theorem step_of_later {c : Crowd} {time : Nat} {move : Move} {a : Activity} {todo : List Request}
    {lookup : Lookup} {events : List Event} {mint : Mint}
    (hp : c.acting? time move = some (a, todo))
    (hact : c.mint.act a.request a.lookup move.supply = (.later lookup events, mint)) :
    c.step time move = (none, c.after move.caller todo
      (some { a with lookup, events := a.events ++ events }) mint) := by
  rw [acting?] at hp
  simp only [step, hp, hact, after]

theorem step_of_over {c : Crowd} {time : Nat} {move : Move} {a : Activity} {todo : List Request}
    {report : Report Response} {mint : Mint} (hp : c.acting? time move = some (a, todo))
    (hact : c.mint.act a.request a.lookup move.supply = (.over report, mint)) :
    c.step time move =
      (some
        { caller := move.caller
          request := a.request
          report := { report with events := a.events ++ report.events }
          started := a.started
          ended := time },
        c.after move.caller todo none mint) := by
  rw [acting?] at hp
  simp only [step, hp, hact, after]

/-- **An entry of a schedule is idle, or one action** of a request that goes on or ends. -/
theorem step_cases (c : Crowd) (time : Nat) (move : Move) :
    (c.acting? time move = none ∧ c.step time move = (none, c)) ∨
    (∃ a todo lookup events mint, c.acting? time move = some (a, todo) ∧
      c.mint.act a.request a.lookup move.supply = (.later lookup events, mint) ∧
      c.step time move = (none, c.after move.caller todo
        (some { a with lookup, events := a.events ++ events }) mint)) ∨
    (∃ a todo report mint, c.acting? time move = some (a, todo) ∧
      c.mint.act a.request a.lookup move.supply = (.over report, mint) ∧
      c.step time move =
        (some
          { caller := move.caller
            request := a.request
            report := { report with events := a.events ++ report.events }
            started := a.started
            ended := time },
          c.after move.caller todo none mint)) := by
  cases hp : c.acting? time move with
  | none => exact .inl ⟨rfl, step_of_idle hp⟩
  | some picked =>
    obtain ⟨a, todo⟩ := picked
    rcases hact : c.mint.act a.request a.lookup move.supply with
      ⟨⟨lookup, events⟩ | ⟨report⟩, mint⟩
    · exact .inr (.inl ⟨a, todo, lookup, events, mint, rfl, hact, step_of_later hp hact⟩)
    · exact .inr (.inr ⟨a, todo, report, mint, rfl, hact, step_of_over hp hact⟩)

/-- To the mint an entry of a schedule is one action or none. -/
theorem acts_step (c : Crowd) (time : Nat) (move : Move) :
    (c.step time move).2.mint = c.mint ∨ ∃ request lookup step,
      c.mint.Acts move.supply request lookup step (c.step time move).2.mint := by
  rcases c.step_cases time move with ⟨-, hs⟩ | ⟨a, todo, lookup, events, mint, -, hact, hs⟩ |
    ⟨a, todo, report, mint, -, hact, hs⟩
  · exact .inl (by rw [hs])
  · rw [hs]
    exact .inr ⟨_, _, _, Mint.Acts.ofAct hact⟩
  · rw [hs]
    exact .inr ⟨_, _, _, Mint.Acts.ofAct hact⟩

theorem over_of_step {c : Crowd} {time : Nat} {move : Move} {k : Completion}
    (hk : (c.step time move).1 = some k) :
    ∃ a todo report mint, c.acting? time move = some (a, todo) ∧
      c.mint.act a.request a.lookup move.supply = (.over report, mint) ∧
      k = { caller := move.caller
            request := a.request
            report := { report with events := a.events ++ report.events }
            started := a.started
            ended := time } := by
  rcases c.step_cases time move with ⟨-, hs⟩ | ⟨a, todo, lookup, events, mint, -, -, hs⟩ |
    ⟨a, todo, report, mint, hp, hact, hs⟩
  · rw [hs] at hk
    exact nomatch hk
  · rw [hs] at hk
    exact nomatch hk
  · rw [hs] at hk
    exact ⟨a, todo, report, mint, hp, hact, (Option.some.inj hk).symm⟩

/-- A caller who acts goes on with what it is doing, or begins with its next request. -/
theorem acting?_cases {c : Crowd} {time : Nat} {move : Move} {a : Activity} {todo : List Request}
    (h : c.acting? time move = some (a, todo)) :
    ∃ caller, c.callers[move.caller]? = some caller ∧
      (caller.doing? = some a ∨
        caller.doing? = none ∧ a.lookup = .loading ∧ a.started = time) := by
  obtain ⟨⟨callerTodo, doing?⟩, hc, hpick⟩ := Option.bind_eq_some_iff.mp h
  refine ⟨_, hc, ?_⟩
  cases doing? with
  | some activity =>
    cases hpick
    exact .inl rfl
  | none =>
    cases callerTodo with
    | nil => exact nomatch hpick
    | cons request rest =>
      cases hpick
      exact .inr ⟨rfl, rfl, rfl⟩

/-- Only what the caller itself does is any different after its action. -/
theorem doing?_after {c : Crowd} {caller : Nat} {todo : List Request} {doing? : Option Activity}
    {mint : Mint} {i : Nat} {other : Caller}
    (h : (c.after caller todo doing? mint).callers[i]? = some other) :
    i = caller ∧ other.doing? = doing? ∨ c.callers[i]? = some other := by
  rw [after, Array.getElem?_setIfInBounds] at h
  split at h
  · rename_i he
    split at h
    · cases h
      exact .inl ⟨he.symm, rfl⟩
    · exact nomatch h
  · exact .inr h

/-! ## Schedules -/

theorem run_cons (c : Crowd) (time : Nat) (move : Move) (rest : List Move) :
    c.run time (move :: rest) =
      ((c.step time move).1.toList ++ ((c.step time move).2.run (time + 1) rest).1,
        ((c.step time move).2.run (time + 1) rest).2) := rfl

/-- A request that is over at the end of a schedule ended with one entry of it. -/
theorem step_of_mem_run {k : Completion} : ∀ {c : Crowd} {time : Nat} {moves : List Move},
    k ∈ (c.run time moves).1 → ∃ c' time' move, (step c' time' move).1 = some k
  | _, _, [], h => absurd h List.not_mem_nil
  | c, time, move :: rest, h => by
    rcases List.mem_append.mp h with hnow | hlater
    · exact ⟨c, time, move, Option.mem_toList.mp hnow⟩
    · exact step_of_mem_run hlater

theorem run_append : ∀ (c : Crowd) (time : Nat) (earlier later : List Move),
    (c.run time (earlier ++ later)).2 =
      ((c.run time earlier).2.run (time + earlier.length) later).2
  | _, _, [], _ => rfl
  | c, time, move :: earlier, later => by
    rw [List.cons_append, run_cons, run_cons, run_append, List.length_cons, Nat.add_assoc,
      Nat.add_comm 1]

end Crowd
end IdMint

import IdMint.Proofs.Bench
import IdMint.Session

/-!
# Sessions as benches

What is known of benches is known of sessions. The clocks of a session are one kind of clock, and as
long as every handle stands for a generator (`HandlesHeld`), which is so from the empty session on,
a session does with a handle what a bench does (`bench_perform`). So the answers of a session, too,
go by the generators and not by the handles, and a generator with a clock of its own is not
disturbed by the others.
-/

namespace IdMint

/-- The report on a call, if this is what a report is on: it says an id, or how there came to be
none. -/
def Report.call? (r : Report Answer) : Option (Report UInt64) :=
  match r.outcome with
  | .ok (.issued id _) => some { outcome := .ok id, events := r.events, reads := r.reads }
  | .error f => some { outcome := .error f, events := r.events, reads := r.reads }
  | .ok _ => none

theorem Report.call?_map_issued (r : Report UInt64) (settings : Settings) :
    (r.map fun id => Answer.issued id settings).call? = some r := by
  obtain ⟨outcome, events, reads⟩ := r
  cases outcome <;> rfl

def Use.command : Use → Command
  | next handle => .next handle
  | clone handle copy => .clone handle copy
  | drop handle => .drop handle

namespace Session

open Fleet (Ref)

/-! ## The clocks of a session -/

/-- There is nothing to read of the system's clock, and a clock that is not there is made when a
reading of it is asked for. -/
def clockKind : ClockKind (Option Clock) where
  supply
    | .system, _ => []
    | .named _, clock? => (clock?.map fun c => c.supply Clock.patience).getD []
  after
    | .system, clock?, _, _ => clock?
    | .named _, clock?, reads, _ => some ((clock?.getD {}).advance reads)

/-- The clock under a name. -/
def clock? (s : Session) : ClockName → Option Clock
  | .system => none
  | .named name => s.clocks.get? name

def bench (s : Session) : Bench (Option Clock) where
  shop := { clocks := s.clock?, fleet := s.fleet }
  handles := s.handles

variable {s : Session}

theorem supply_eq (s : Session) (clock : ClockName) :
    s.supply clock = clockKind.supply clock (s.clock? clock) := by
  cases clock <;> rfl

@[simp] theorem fleet_advance (s : Session) (clock : ClockName) (reads : Nat) :
    (s.advance clock reads).fleet = s.fleet := by
  cases clock <;> rfl

@[simp] theorem handles_advance (s : Session) (clock : ClockName) (reads : Nat) :
    (s.advance clock reads).handles = s.handles := by
  cases clock <;> rfl

theorem clock?_advance (s : Session) (clock : ClockName) (reads spent : Nat) :
    (s.advance clock reads).clock? =
      (s.bench.shop.pass clockKind clock reads spent).clocks := by
  funext name
  cases clock with
  | system => cases name <;> simp [advance, clock?, Shop.pass, bench, clockKind]
  | named changed =>
    cases name with
    | system => simp [clock?, Shop.pass, bench]
    | named name =>
      simp only [advance, changeClock, clock?, Shop.pass, bench, Directory.get?_set,
        ClockName.named.injEq]
      by_cases hname : name = changed
      · rw [if_pos hname, if_pos hname, hname]
        rfl
      · rw [if_neg hname, if_neg hname]

theorem bench_advance (s : Session) (clock : ClockName) (reads spent : Nat) :
    (s.advance clock reads).bench =
      { s.bench with shop := s.bench.shop.pass clockKind clock reads spent } := by
  simp only [bench, fleet_advance, handles_advance, clock?_advance s clock reads spent, Shop.pass]

/-! ## Handles that stand for generators -/

/-- Every handle stands for a generator. -/
def HandlesHeld (s : Session) : Prop :=
  ∀ handle ref, s.handles.get? handle = some ref → ref < s.fleet.members.size

theorem handlesHeld_empty : HandlesHeld {} := by
  intro handle ref h
  exact nomatch h

theorem HandlesHeld.mono {t : Session} (h : s.HandlesHeld) (hhandles : t.handles = s.handles)
    (hsize : s.fleet.members.size ≤ t.fleet.members.size) : t.HandlesHeld := by
  intro handle ref hget
  rw [hhandles] at hget
  exact Nat.lt_of_lt_of_le (h handle ref hget) hsize

theorem HandlesHeld.advance (h : s.HandlesHeld) (clock : ClockName) (reads : Nat) :
    (s.advance clock reads).HandlesHeld := by
  refine h.mono (handles_advance s clock reads) (Nat.le_of_eq ?_)
  rw [fleet_advance]

theorem HandlesHeld.set (h : s.HandlesHeld) {ref : Ref} (href : ref < s.fleet.members.size)
    (handle : String) : HandlesHeld { s with handles := s.handles.set handle ref } := by
  intro other ref' hget
  simp only [Directory.get?_set] at hget
  split at hget
  · rw [← Option.some.inj hget]
    exact href
  · exact h other ref' hget

theorem HandlesHeld.held? (h : s.HandlesHeld) {handle : String} {ref : Ref}
    (hget : s.handles.get? handle = some ref) :
    ∃ g, s.fleet.get? ref = some g ∧ s.held? handle = some (ref, g) := by
  obtain ⟨g, hg⟩ : ∃ g, s.fleet.get? ref = some g :=
    ⟨_, Array.getElem?_eq_getElem (h handle ref hget)⟩
  exact ⟨g, hg, by simp [Session.held?, hget, hg]⟩

theorem held?_of_none {handle : String} (hget : s.handles.get? handle = none) :
    s.held? handle = none := by
  simp [Session.held?, hget]

theorem get?_of_held? {handle : String} {ref : Ref} {g : Generator}
    (h : s.held? handle = some (ref, g)) : s.handles.get? handle = some ref := by
  simp only [Session.held?, Option.bind_eq_bind, Option.bind_eq_some_iff, Option.some.injEq,
    Prod.mk.injEq] at h
  obtain ⟨ref', hhandle, g', -, rfl, -⟩ := h
  exact hhandle

theorem HandlesHeld.onGenerator (h : s.HandlesHeld) {handle : String}
    {act : Ref → Generator → Report Answer × Session}
    (hact : ∀ ref g, s.handles.get? handle = some ref → (act ref g).2.HandlesHeld) :
    (s.onGenerator handle act).2.HandlesHeld := by
  unfold Session.onGenerator
  split
  · exact h
  · rename_i ref g hheld
    exact hact ref g (get?_of_held? hheld)

theorem build_of_error {handle : String} {origin : Origin} {start : Blueprint}
    {settings : List Setting} {b : Blueprint} {f : Failure} (horigin : origin.blueprint = .ok start)
    (hb : start.configure settings = b) (h : (b.build (s.supply b.clock)).outcome = .error f) :
    (s.build handle origin settings).2 =
      s.advance b.clock (b.build (s.supply b.clock)).reads := by
  simp only [build, horigin, hb, h]

theorem build_of_ok {handle : String} {origin : Origin} {start : Blueprint}
    {settings : List Setting} {b : Blueprint} {g : Generator} (horigin : origin.blueprint = .ok start)
    (hb : start.configure settings = b) (h : (b.build (s.supply b.clock)).outcome = .ok g) :
    (s.build handle origin settings).2 =
      { s.advance b.clock (b.build (s.supply b.clock)).reads with
        fleet := (s.fleet.add g).2
        handles := s.handles.set handle (s.fleet.add g).1 } := by
  simp only [build, horigin, hb, h, fleet_advance, handles_advance]

theorem HandlesHeld.build (h : s.HandlesHeld) (handle : String) (origin : Origin)
    (settings : List Setting) : (s.build handle origin settings).2.HandlesHeld := by
  cases horigin : origin.blueprint with
  | error cause =>
    simp only [Session.build, horigin]
    exact h
  | ok start =>
    generalize hb : start.configure settings = b
    cases hbuilt : (b.build (s.supply b.clock)).outcome with
    | error f =>
      rw [build_of_error horigin hb hbuilt]
      exact h.advance _ _
    | ok g =>
      have hadded : HandlesHeld { s with fleet := (s.fleet.add g).2 } :=
        h.mono rfl (by simp [Fleet.add])
      have hnew : (s.fleet.add g).1 < (s.fleet.add g).2.members.size := by simp [Fleet.add]
      rw [build_of_ok horigin hb hbuilt]
      exact (hadded.set hnew handle).mono rfl (Nat.le_refl _)

theorem HandlesHeld.perform (h : s.HandlesHeld) (c : Command) : (s.perform c).2.HandlesHeld := by
  cases c with
  | build handle origin settings => exact h.build handle origin settings
  | next handle =>
    apply h.onGenerator
    intro ref g _
    refine h.mono (handles_advance _ _ _) (Nat.le_of_eq ?_)
    rw [fleet_advance]
    exact (Fleet.size_call _ _ _).symm
  | draw handle count =>
    apply h.onGenerator
    intro ref g _
    refine h.mono (handles_advance _ _ _) (Nat.le_of_eq ?_)
    rw [fleet_advance]
    exact (Fleet.size_draw _ _ _ _).symm
  | clone handle copy =>
    apply h.onGenerator
    intro ref g hget
    exact h.set (h handle ref hget) copy
  | drop handle =>
    intro other ref hget
    simp only [Session.perform, Directory.get?_erase] at hget
    split at hget
    · exact nomatch hget
    · exact h other ref hget
  | inspect handle =>
    apply h.onGenerator
    intro ref g _
    exact h
  | stop clock now? => exact h
  | wind clock stretches => exact h
  | read clock =>
    simp only [Session.perform]
    cases s.supply (.named clock) with
    | nil => exact h
    | cons reading rest =>
      cases reading with
      | fault f => exact h
      | time ms => exact h.advance _ _

theorem handlesHeld_run (commands : List Command) {s : Session} (h : s.HandlesHeld) :
    (s.run commands).2.HandlesHeld := by
  induction commands generalizing s with
  | nil => exact h
  | cons c rest ih => exact ih (h.perform c)

/-! ## A session is a bench -/

/-- **A session does with a handle what a bench does**, and reports the same. -/
theorem bench_perform (h : s.HandlesHeld) (u : Use) :
    (s.perform u.command).2.bench = (s.bench.step clockKind u).2 ∧
      (s.perform u.command).1.call?.toList =
        (s.bench.step clockKind u).1.map (·.report) := by
  cases u with
  | next handle =>
    cases hget : s.handles.get? handle with
    | none =>
      have hbench : s.bench.handles.get? handle = none := hget
      simp [Use.command, perform, onGenerator, held?_of_none hget, Bench.step, hbench, Report.call?]
    | some ref =>
      obtain ⟨g, hg, hheld⟩ := h.held? hget
      have hbench : s.bench.handles.get? handle = some ref := hget
      have hshop : s.bench.shop.fleet.get? ref = some g := hg
      have hperform : s.perform (.next handle) =
          ((g.call (s.supply g.clock)).1.map fun id => .issued id g.settings,
            { s with fleet := s.fleet.update ref (g.call (s.supply g.clock)).2 }.advance g.clock
              (g.call (s.supply g.clock)).1.reads) := by
        simp only [perform, onGenerator, hheld, Fleet.call_of_get? hg]
      rw [Use.command, hperform, Bench.step, hbench]
      simp only [Shop.call_of_get? hshop]
      rw [bench_advance _ _ _ (g.call (s.supply g.clock)).1.spent, Report.call?_map_issued,
        supply_eq]
      exact ⟨rfl, rfl⟩
  | clone handle copy =>
    cases hget : s.handles.get? handle with
    | none =>
      have hbench : s.bench.handles.get? handle = none := hget
      simp [Use.command, perform, onGenerator, held?_of_none hget, Bench.step, hbench, Report.call?]
    | some ref =>
      obtain ⟨g, -, hheld⟩ := h.held? hget
      have hbench : s.bench.handles.get? handle = some ref := hget
      rw [Bench.step, hbench]
      simp only [Use.command, perform, onGenerator, hheld]
      exact ⟨rfl, rfl⟩
  | drop handle => exact ⟨rfl, rfl⟩

theorem bench_run (uses : List Use) {s : Session} (h : s.HandlesHeld) :
    (s.run (uses.map Use.command)).2.bench = (s.bench.run clockKind uses).2 ∧
      (s.run (uses.map Use.command)).1.filterMap Report.call? =
        (s.bench.run clockKind uses).1.map (·.report) := by
  induction uses generalizing s with
  | nil => exact ⟨rfl, rfl⟩
  | cons u rest ih =>
    obtain ⟨hbench, hreport⟩ := bench_perform h u
    obtain ⟨hlater, hlog⟩ := ih (h.perform u.command)
    rw [hbench] at hlater hlog
    refine ⟨hlater, ?_⟩
    rw [List.map_cons, Session.run, Bench.run_cons, List.map_append, ← hreport, ← hlog]
    cases hcall : (s.perform u.command).1.call? <;> simp [hcall]

/-- A generator is built in a session as it is on a bench. -/
theorem bench_build (s : Session) (handle : String) {origin : Origin} {start : Blueprint}
    (horigin : origin.blueprint = .ok start) (settings : List Setting) :
    (s.perform (.build handle origin settings)).2.bench =
      (s.bench.build clockKind handle (start.configure settings)).2 := by
  generalize hb : start.configure settings = b
  have hsupply : clockKind.supply b.clock (s.bench.shop.clocks b.clock) = s.supply b.clock :=
    (supply_eq s b.clock).symm
  have hclocks := clock?_advance s b.clock (b.build (s.supply b.clock)).reads
    (b.build (s.supply b.clock)).spent
  rw [perform]
  cases hbuilt : (b.build (s.supply b.clock)).outcome with
  | error f =>
    rw [build_of_error horigin hb hbuilt, bench_advance _ _ _ (b.build (s.supply b.clock)).spent]
    simp only [Bench.build, Shop.build, hsupply, hbuilt]
  | ok g =>
    rw [build_of_ok horigin hb hbuilt]
    simp only [Bench.build, Shop.build, hsupply, hbuilt]
    -- Nothing but the clocks is put together in another way.
    exact congrArg (fun clocks => Bench.mk (Shop.mk clocks (s.fleet.add g).2)
      (s.handles.set handle (s.fleet.add g).1)) hclocks

/-- **Handles and isolation.** Whatever kind of clock there is, the answers of a run over handles go
by the generators behind them, generators with clocks of their own do not disturb each other, and
new ones have issued nothing. And whatever has been commanded before, sessions run as benches do. -/
theorem handles_isolated :
    (∀ (σ : Type) (K : ClockKind σ) (b : Bench σ) (uses : List Use), b.Isolated K uses) ∧
    ∀ commands : List Command,
      let s := (({} : Session).run commands).2
      (∀ uses : List Use,
        (s.run (uses.map Use.command)).2.bench = (s.bench.run clockKind uses).2 ∧
        (s.run (uses.map Use.command)).1.filterMap Report.call? =
          (s.bench.run clockKind uses).1.map (·.report)) ∧
      ∀ handle origin start settings, Origin.blueprint origin = .ok start →
        (s.perform (.build handle origin settings)).2.bench =
          (s.bench.build clockKind handle (start.configure settings)).2 := by
  refine ⟨fun σ K b uses => b.isolated K uses, ?_⟩
  intro commands s
  refine ⟨fun uses => bench_run uses (handlesHeld_run commands handlesHeld_empty), ?_⟩
  intro handle origin start settings horigin
  exact bench_build s handle horigin settings

end Session
end IdMint

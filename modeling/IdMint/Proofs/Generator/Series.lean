import IdMint.Proofs.Generator.Readings

/-!
# Calls on one clock

The calls on a generator, through whichever of its handles they are made, take their readings from
one clock: a call begins to read where the one before it stopped. `Generator.series` is such a run.
How a call goes then depends on how much the calls before it have read, and a call that was turned
down has read something too, perhaps a great deal of it while it waited.

Still, it leaves no trace. Without the calls that were turned down, and without the readings that
they took (`Generator.pruned`), the other calls go exactly as they went, and the generator ends where
it ended. The proof goes along the run. A call that was turned down has left the generator as it was
(`call_of_turnedDown`), and any other call sees the same readings as before up to the point where it
stops (`call_pruned`).
-/

namespace IdMint

/-- Whether a call was turned down for what the clock read. -/
def Report.turnedDown (r : Report UInt64) : Bool :=
  match r.outcome with
  | .error (.refused (.clockMovedBackwards _ _)) | .error (.refused (.clockBeforeEpoch _ _))
  | .error (.refused .overTimeLimit) => true
  | _ => false

namespace Generator

/-! ## Runs -/

/-- The reports on calls made one after the other on one stream of readings, and the generator after
them. A call that fails does not keep later ones from being made. -/
def series (g : Generator) (stream : List Reading) : Nat → List (Report UInt64) × Generator
  | 0 => ([], g)
  | n + 1 =>
    let (report, g) := g.call stream
    let (reports, g) := g.series (stream.drop report.reads) n
    (report :: reports, g)

/-- The stream of a run without the readings that went to calls that were turned down. -/
def pruned (g : Generator) (stream : List Reading) : Nat → List Reading
  | 0 => stream
  | n + 1 =>
    let (report, g) := g.call stream
    let later := g.pruned (stream.drop report.reads) n
    if report.turnedDown then later else report.taken stream ++ later

theorem series_succ (g : Generator) (stream : List Reading) (n : Nat) :
    g.series stream (n + 1) =
      ((g.call stream).1 ::
          ((g.call stream).2.series (stream.drop (g.call stream).1.reads) n).1,
        ((g.call stream).2.series (stream.drop (g.call stream).1.reads) n).2) := rfl

theorem pruned_succ (g : Generator) (stream : List Reading) (n : Nat) :
    g.pruned stream (n + 1) =
      if (g.call stream).1.turnedDown then
        (g.call stream).2.pruned (stream.drop (g.call stream).1.reads) n
      else
        (g.call stream).1.taken stream ++
          (g.call stream).2.pruned (stream.drop (g.call stream).1.reads) n := rfl

/-! ## Runs that read no more -/

theorem pruned_nil (g : Generator) (n : Nat) : g.pruned [] n = [] := by
  induction n generalizing g with
  | zero => rfl
  | succ n ih => simp [pruned_succ, ih, Report.taken]

theorem pruned_of_poisoned {g : Generator} (h : g.poisoned = true) (stream : List Reading)
    (n : Nat) : g.pruned stream n = stream := by
  induction n with
  | zero => rfl
  | succ n ih =>
    simp [pruned_succ, call_of_poisoned h, ih, Report.turnedDown, Report.taken]

/-! ## Calls in a run -/

theorem call_of_turnedDown (g : Generator) (stream : List Reading)
    (h : (g.call stream).1.turnedDown = true) : (g.call stream).2 = g := by
  cases hr : (g.call stream).1.outcome with
  | ok id => simp [Report.turnedDown, hr] at h
  | error f =>
    cases f with
    | refused cause => exact eq_of_error hr rfl
    | overflowed o => simp [Report.turnedDown, hr] at h
    | clockFailed f => simp [Report.turnedDown, hr] at h
    | unanswered => simp [Report.turnedDown, hr] at h

theorem drop_taken_append (g : Generator) (stream more : List Reading) :
    ((g.call stream).1.taken stream ++ more).drop (g.call stream).1.reads = more := by
  apply List.drop_left'
  rw [Report.taken, List.length_take]
  exact Nat.min_eq_left (reads_call_le g stream)

/-- A call goes the same way on the pruned stream, for what it reads is all still there. If it ended
for want of readings, no later call took any, so that nothing behind it was pruned either. -/
theorem call_pruned (g : Generator) (stream : List Reading) (n : Nat) :
    g.call ((g.call stream).1.taken stream ++
      (g.call stream).2.pruned (stream.drop (g.call stream).1.reads) n) = g.call stream := by
  cases hstarved : (g.call stream).1.starved with
  | false => exact call_taken_append g stream _ hstarved
  | true =>
    have hlater : (g.call stream).2.pruned (stream.drop (g.call stream).1.reads) n =
        stream.drop (g.call stream).1.reads := by
      rcases later_of_starved g stream hstarved with hnone | hpoisoned
      · rw [hnone, pruned_nil]
      · exact pruned_of_poisoned hpoisoned _ n
    rw [hlater, Report.taken_append_drop]

/-- **Calls that are turned down leave no trace.** Take any run of calls, and leave out every call
that was turned down together with the readings that it took. The other calls answer as they did,
with the same events and as many readings, and the generator ends as it did. -/
theorem turned_down_leave_no_trace (g : Generator) (stream : List Reading) (n : Nat) :
    let others := (g.series stream n).1.filter fun r => !r.turnedDown
    g.series (g.pruned stream n) others.length = (others, (g.series stream n).2) := by
  induction n generalizing g stream with
  | zero => rfl
  | succ n ih =>
    have hrest := ih (g.call stream).2 (stream.drop (g.call stream).1.reads)
    rw [series_succ, pruned_succ]
    cases hdown : (g.call stream).1.turnedDown with
    | true =>
      have hsame := call_of_turnedDown g stream hdown
      rw [hsame] at hrest ⊢
      simpa [hdown] using hrest
    | false =>
      simp only [hdown, Bool.false_eq_true, if_false, Bool.not_false, List.filter_cons_of_pos,
        List.length_cons]
      rw [series_succ, call_pruned, drop_taken_append, hrest]

/-- A call that waits for the clock to catch up, waits again for the next millisecond, and then finds
that no id can be for that one. It is turned down with everything as it was, three readings on. -/
example :
    let s : Settings := { policy := .wait 5 }
    let g : Generator := { settings := s, progress := { lastMs := 2 ^ 41 - 1, sequence := 4095 } }
    let stream : List Reading := [.time (2 ^ 41 - 2), .time (2 ^ 41 - 1), .time (2 ^ 41)]
    (g.call stream).1.reads = 3 ∧ (g.call stream).1.turnedDown = true ∧ (g.call stream).2 = g := by
  decide

end Generator
end IdMint

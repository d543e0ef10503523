import IdMint.Proofs.Blueprint
import IdMint.Proofs.Generator.Turn
import IdMint.Proofs.Layout

/-!
# One call

What a call that issues an id has done, whatever readings it took on the way. The answer is short:
the progress that it proposes comes right after the one that it started from (`Progress.Next`), lies
within the time that the settings allow (`Progress.Issued`), and the id is the number of that
progress (`Settings.place`).

The number is an integer and not a word, so that it also makes sense for a generator that has issued
nothing. Its last millisecond is the one before 1970, no epoch is that early, and its number is
negative: below every id that can come. Nothing here or later treats the first id as a case apart.
-/

namespace IdMint

/-! ## Progress -/

/-- Where an id for this progress stands among all numbers. -/
def Settings.place (s : Settings) (p : Progress) : Int :=
  (p.lastMs.toInt - s.epochMs.toInt) * 2 ^ 22 + s.machine * 2 ^ 12 + p.sequence.toNat

namespace Progress

/-- `q` comes right after `p`: a later millisecond begins its sequence, and the same one goes on
with it. -/
def Next (p q : Progress) : Prop :=
  p.lastMs.toInt < q.lastMs.toInt ∧ q.sequence = 0 ∨
    q.lastMs = p.lastMs ∧ q.sequence.toNat = p.sequence.toNat + 1

/-- Progress that an id may have been issued at. -/
structure Issued (s : Settings) (p : Progress) : Prop where
  epoch_le : s.epochMs.toInt ≤ p.lastMs.toInt
  lt_limit : p.lastMs.toInt < s.epochMs.toInt + 2 ^ 41
  sequence_lt : p.sequence.toNat < 2 ^ 12

/-- Progress that a generator can have: none, or that of an id. -/
def Sound (s : Settings) (p : Progress) : Prop := p = {} ∨ p.Issued s

theorem Sound.sequence_lt {s : Settings} {p : Progress} (h : p.Sound s) :
    p.sequence.toNat < 2 ^ 12 := by
  rcases h with rfl | h
  · decide
  · exact h.sequence_lt

/-- The place of an id shows which machine it is from. -/
theorem Issued.machine_eq {s : Settings} {p : Progress} {n : Nat} (h : p.Issued s) (hs : s.Valid)
    (hn : (n : Int) = s.place p) : n / 2 ^ 12 % 2 ^ 10 = s.machine := by
  have he := h.epoch_le
  have hq := h.sequence_lt
  have hm := hs.machine_lt
  unfold Settings.place at hn
  omega

/-- What comes next stands higher. A later millisecond outweighs the whole of a sequence. -/
theorem Next.place_lt {s : Settings} {p q : Progress} (h : p.Next q)
    (hp : p.sequence.toNat < 2 ^ 12) : s.place p < s.place q := by
  unfold Settings.place
  rcases h with ⟨hlt, hq⟩ | ⟨heq, hq⟩
  · rw [hq, UInt16.toNat_zero]
    omega
  · rw [heq, hq]
    omega

end Progress

namespace Generator

/-! ## One turn -/

/-- A stamp for a millisecond that is not before the epoch has no overflow to fear: it is an id, or
the time is up. -/
theorem stamp_eq {s : Settings} {nowMs : Int64} (sequence : UInt16)
    (hs : 0 ≤ s.epochMs.toInt) (hnow : s.epochMs.toInt ≤ nowMs.toInt) :
    ∃ elapsed : Int64, elapsed.toInt = nowMs.toInt - s.epochMs.toInt ∧
      stamp s nowMs sequence =
        if elapsed.toInt < 2 ^ 41 then
          .ok (Layout.pack elapsed.toUInt64 s.dataCenter s.worker sequence,
            { lastMs := nowMs, sequence })
        else .error (.refused .overTimeLimit) := by
  obtain ⟨elapsed, hsub⟩ : ∃ elapsed, Checked.sub nowMs s.epochMs = .ok elapsed :=
    Checked.exists_sub_of_fits (Checked.fits_sub_of_nonneg (by omega) hs)
  refine ⟨elapsed, Checked.sub_eq_ok_iff.mp hsub, ?_⟩
  unfold stamp
  simp only [hsub, Int64.le_iff_toInt_le, Layout.toInt_timeLimit]
  by_cases hlt : elapsed.toInt < 2 ^ 41
  · rw [if_neg (by omega), if_pos hlt]
  · rw [if_pos (by omega), if_neg hlt]

theorem toNat_and_maxSequence (n : UInt16) :
    (n &&& Layout.maxSequence).toNat = n.toNat % 2 ^ 12 := by
  rw [UInt16.toNat_and, show Layout.maxSequence.toNat = 2 ^ 12 - 1 from rfl,
    Nat.and_two_pow_sub_one_eq_mod]

/-! ## A reading that is not behind -/

/-- The sequence of a generator is far below what its word can hold. -/
theorem increment_of_sound {s : Settings} {p : Progress} (hp : p.Sound s) :
    Checked.increment p.sequence = .ok (p.sequence + 1) ∧
      (p.sequence + 1).toNat = p.sequence.toNat + 1 := by
  have hlt := hp.sequence_lt
  have hsucc : (p.sequence + 1).toNat = p.sequence.toNat + 1 := by
    rw [UInt16.toNat_add, UInt16.toNat_one]
    omega
  exact ⟨Checked.increment_eq_ok_iff.mpr hsucc, hsucc⟩

theorem respond_of_reached {s : Settings} {p : Progress} {phase : Phase} {nowMs : Int64}
    (accepts : phase.Accepts) (reached : p.lastMs.toInt ≤ nowMs.toInt) :
    respond s p phase nowMs = accept s p nowMs := by
  have hbehind : ¬ nowMs < p.lastMs := by
    rw [Int64.lt_iff_toInt_lt]
    omega
  cases phase with
  | entry | catchUp => rw [respond, if_neg hbehind]
  | nextMillisecond => exact accepts.elim

theorem accept_of_early {s : Settings} {p : Progress} {nowMs : Int64}
    (early : nowMs.toInt < s.epochMs.toInt) :
    accept s p nowMs = ([], .finish (.error (.refused (.clockBeforeEpoch s.epochMs nowMs)))) := by
  rw [accept, if_pos (Int64.lt_iff_toInt_lt.mpr early)]

theorem accept_of_later {s : Settings} {p : Progress} {nowMs : Int64}
    (later : p.lastMs.toInt < nowMs.toInt) (epoch : s.epochMs.toInt ≤ nowMs.toInt) :
    accept s p nowMs = ([], .finish (stamp s nowMs 0)) := by
  have hearly : ¬ nowMs < s.epochMs := by
    rw [Int64.lt_iff_toInt_lt]
    omega
  have hsame : nowMs ≠ p.lastMs := by
    rintro rfl
    omega
  rw [accept, if_neg hearly, if_neg hsame]

/-- The last issued millisecond again, with numbers left. -/
theorem accept_again {s : Settings} {p : Progress} (hp : p.Sound s)
    (epoch : s.epochMs.toInt ≤ p.lastMs.toInt) (left : p.sequence.toNat + 1 < 2 ^ 12) :
    accept s p p.lastMs = ([], .finish (stamp s p.lastMs (p.sequence + 1))) := by
  obtain ⟨hinc, hsucc⟩ := increment_of_sound hp
  have hmask : (p.sequence + 1) &&& Layout.maxSequence = p.sequence + 1 := by
    rw [← UInt16.toNat_inj, toNat_and_maxSequence, hsucc, Nat.mod_eq_of_lt left]
  have hne : p.sequence + 1 ≠ 0 := by
    rw [Ne, ← UInt16.toNat_inj, hsucc]
    simp
  have hearly : ¬ p.lastMs < s.epochMs := by
    rw [Int64.lt_iff_toInt_lt]
    omega
  simp [accept, hearly, hinc, hmask, hne]

/-- The last issued millisecond again, with no number left. -/
theorem accept_usedUp {s : Settings} {p : Progress} (hp : p.Sound s)
    (epoch : s.epochMs.toInt ≤ p.lastMs.toInt) (full : p.sequence.toNat + 1 = 2 ^ 12) :
    accept s p p.lastMs = ([.sequenceExhausted p.lastMs], .ask .nextMillisecond) := by
  obtain ⟨hinc, hsucc⟩ := increment_of_sound hp
  have hmask : (p.sequence + 1) &&& Layout.maxSequence = 0 := by
    rw [← UInt16.toNat_inj, toNat_and_maxSequence, hsucc, full]
    rfl
  have hearly : ¬ p.lastMs < s.epochMs := by
    rw [Int64.lt_iff_toInt_lt]
    omega
  simp [accept, hearly, hinc, hmask]

/-! ## A turn that issues an id -/

/-- A call from `p` has issued `id` and proposes `q`. -/
structure Issues (s : Settings) (p : Progress) (id : UInt64) (q : Progress) : Prop where
  next : p.Next q
  issued : q.Issued s
  toNat_id : (id.toNat : Int) = s.place q

theorem Issues.ofStamp {s : Settings} {p q : Progress} {nowMs : Int64} {sequence : UInt16}
    {id : UInt64} (hs : s.Valid) (hnow : s.epochMs.toInt ≤ nowMs.toInt)
    (hsq : sequence.toNat < 2 ^ 12) (hn : p.Next { lastMs := nowMs, sequence })
    (h : stamp s nowMs sequence = .ok (id, q)) : Issues s p id q := by
  obtain ⟨elapsed, he, hstamp⟩ := stamp_eq sequence hs.epoch_nonneg hnow
  rw [hstamp] at h
  split at h
  · rename_i hlt
    simp only [Except.ok.injEq, Prod.mk.injEq] at h
    obtain ⟨rfl, rfl⟩ := h
    have hw : (elapsed.toUInt64.toNat : Int) = elapsed.toInt :=
      Layout.toNat_toUInt64_of_nonneg (by omega)
    refine ⟨hn, ⟨hnow, by simp only; omega, hsq⟩, ?_⟩
    rw [Layout.toNat_pack (by omega) hs.dataCenter_lt hs.worker_lt hsq]
    simp only [Settings.place, Settings.machine]
    omega
  · exact nomatch h

/-! ## The loop -/

/-- A call that waits for the next millisecond is past the epoch: the millisecond that it has seen
used up was one that ids may be issued for. -/
def Phase.Past (s : Settings) (p : Progress) (phase : Phase) : Prop :=
  phase = .nextMillisecond → s.epochMs.toInt ≤ p.lastMs.toInt

theorem Phase.past_entry (s : Settings) (p : Progress) : Phase.entry.Past s p := by
  intro h
  cases h

theorem Phase.Past.ofAsk {s : Settings} {p : Progress} {phase phase' : Phase} {nowMs : Int64}
    {events : List Event} (hpast : phase.Past s p)
    (h : respond s p phase nowMs = (events, .ask phase')) : phase'.Past s p := by
  generalize hturn : Turn.ask phase' = turn at h
  rintro rfl
  cases Responds.ofEq h with
  | notPast => exact hpast rfl
  | exhausted _ same epoch =>
    rw [← same]
    exact epoch
  | waits | stillBehind => simp at hturn
  | outOfReach | movedBackwards | beforeEpoch | sequenceOverflow => simp at hturn
  | past | sameMillisecond | laterMillisecond => simp at hturn

/-- Three rules end a call with an id: for the last issued millisecond again, and for a later one
with or without a wait for it. -/
theorem Issues.ofRespond {s : Settings} {p q : Progress} {phase : Phase} {nowMs : Int64}
    {events : List Event} {id : UInt64} (hs : s.Valid) (hp : p.Sound s) (hpast : phase.Past s p)
    (h : respond s p phase nowMs = (events, .finish (.ok (id, q)))) : Issues s p id q := by
  generalize hturn : Turn.finish (.ok (id, q)) = turn at h
  cases Responds.ofEq h with
  | past later =>
    have hepoch := hpast rfl
    exact .ofStamp hs (by omega) (by decide) (.inl ⟨later, rfl⟩) (Turn.finish.inj hturn).symm
  | laterMillisecond _ later epoch =>
    exact .ofStamp hs epoch (by decide) (.inl ⟨later, rfl⟩) (Turn.finish.inj hturn).symm
  | @sameMillisecond _ next _ same epoch increment within =>
    have hnext : next.toNat = p.sequence.toNat + 1 := Checked.increment_eq_ok_iff.mp increment
    -- The sequence has not come round, so the mask took nothing away.
    have hmask := toNat_and_maxSequence next
    have hne : (next &&& Layout.maxSequence).toNat ≠ 0 := by
      rwa [Ne, ← UInt16.toNat_zero, UInt16.toNat_inj]
    have hlt := hp.sequence_lt
    refine .ofStamp hs epoch (by omega) (.inr ⟨same, ?_⟩) (Turn.finish.inj hturn).symm
    simp only
    omega
  | outOfReach | movedBackwards | beforeEpoch | sequenceOverflow => simp at hturn
  | waits | stillBehind | notPast | exhausted => simp at hturn

theorem Issues.ofAnswer {s : Settings} {p q : Progress} {id : UInt64} (hs : s.Valid)
    (hp : p.Sound s) : ∀ {supply : List Reading} {phase : Phase}, phase.Past s p →
      (answer s p phase supply).outcome = .ok (id, q) → Issues s p id q
  | [], _, _, h => nomatch h
  | .fault _ :: _, _, _, h => nomatch h
  | .time nowMs :: rest, phase, hpast, h => by
    unfold answer at h
    split at h
    · rename_i hturn
      simp only at h
      rw [h] at hturn
      exact .ofRespond hs hp hpast hturn
    · rename_i hturn
      exact Issues.ofAnswer hs hp (hpast.ofAsk hturn) h

/-! ## The generator -/

/-- What holds of every generator that was built, whatever has been asked of it since. -/
structure Sound (g : Generator) : Prop where
  settings : g.settings.Valid
  progress : g.progress.Sound g.settings

theorem Sound.ofBuild {b : Blueprint} {supply : List Reading} {g : Generator}
    (h : (b.build supply).outcome = .ok g) : g.Sound :=
  let ⟨hs, hp, _⟩ := Blueprint.build_ok h
  ⟨hs, .inl hp⟩

/-- **A call has one effect on how far a generator has come**: with an id, it is where that id
stands. Without one it is where it was. -/
theorem call_cases {g : Generator} (hg : g.Sound) (supply : List Reading) :
    (∃ id q, (g.call supply).1.outcome = .ok id ∧ Issues g.settings g.progress id q ∧
      (g.call supply).2 = { g with progress := q }) ∨
    (∃ f, (g.call supply).1.outcome = .error f ∧
      (g.call supply).2.settings = g.settings ∧ (g.call supply).2.progress = g.progress) := by
  unfold call
  split
  · exact .inr ⟨_, rfl, rfl, rfl⟩
  · cases hr : (answer g.settings g.progress .entry supply).outcome with
    | ok answered =>
      obtain ⟨id, q⟩ := answered
      exact .inl ⟨id, q, by simp [Report.map, hr, Except.map],
        .ofAnswer hg.settings hg.progress (Phase.past_entry _ _) hr, by simp [hr, settle]⟩
    | error f =>
      refine .inr ⟨f, by simp [Report.map, hr, Except.map], ?_⟩
      simp only [hr, settle]
      split <;> exact ⟨rfl, rfl⟩

theorem exists_call_eq (g : Generator) (supply : List Reading) :
    ∃ progress poisoned, (g.call supply).2 = { g with progress, poisoned } := by
  unfold call
  split
  · exact ⟨_, _, rfl⟩
  · simp only [settle]
    split
    · exact ⟨_, _, rfl⟩
    · split <;> exact ⟨_, _, rfl⟩

theorem settings_call (g : Generator) (supply : List Reading) :
    (g.call supply).2.settings = g.settings := by
  obtain ⟨progress, poisoned, hcall⟩ := exists_call_eq g supply
  rw [hcall]

theorem clock_call (g : Generator) (supply : List Reading) :
    (g.call supply).2.clock = g.clock := by
  obtain ⟨progress, poisoned, hcall⟩ := exists_call_eq g supply
  rw [hcall]

theorem Issues.ofCall {g : Generator} (hg : g.Sound) {supply : List Reading} {id : UInt64}
    (h : (g.call supply).1.outcome = .ok id) :
    Issues g.settings g.progress id (g.call supply).2.progress := by
  rcases call_cases hg supply with ⟨id', q, ho, hi, he⟩ | ⟨f, ho, -⟩
  · rw [h, Except.ok.injEq] at ho
    rw [he, ho]
    exact hi
  · rw [h] at ho
    exact nomatch ho

theorem place_le_call {g : Generator} (hg : g.Sound) (supply : List Reading) :
    g.settings.place g.progress ≤ g.settings.place (g.call supply).2.progress := by
  rcases call_cases hg supply with ⟨id, q, -, hi, he⟩ | ⟨f, -, -, hp⟩
  · rw [he]
    exact Int.le_of_lt (hi.next.place_lt hg.progress.sequence_lt)
  · exact Int.le_of_eq (congrArg g.settings.place hp.symm)

theorem Sound.call {g : Generator} (hg : g.Sound) (supply : List Reading) :
    (g.call supply).2.Sound := by
  rcases call_cases hg supply with ⟨id, q, -, hi, he⟩ | ⟨f, -, hs, hp⟩
  · rw [he]
    exact ⟨hg.settings, .inr hi.issued⟩
  · exact ⟨by rw [hs]; exact hg.settings, by rw [hs, hp]; exact hg.progress⟩

/-- A generator that was built, and has been called any number of times since. -/
inductive Reached : Generator → Prop
  | built {b : Blueprint} {reading : List Reading} {g : Generator} :
      (b.build reading).outcome = .ok g → Reached g
  | called {g : Generator} (supply : List Reading) : Reached g → Reached (g.call supply).2

theorem Reached.sound {g : Generator} : g.Reached → g.Sound
  | .built h => .ofBuild h
  | .called supply h => h.sound.call supply

/-- The fallback of a registry is what a blueprint builds that says nothing. -/
theorem reached_fallback : Reached { settings := {} } :=
  .built (show (({} : Blueprint).build [.time 0]).outcome = .ok { settings := {} } from rfl)

end Generator
end IdMint

import IdMint.Proofs.Generator.Ending

/-!
# A call on a clock that never stops

A supply is a finite list of readings, and a call on it may go unanswered because the list was too
short. A clock has no last reading. So the question here is what a call does on a stream of
readings, one for each time that it could ask, of which every supply is a beginning.

What it should do is said first, without turns or phases, by the indices at which readings first
reach or pass the last issued millisecond (`Answers`). Then the turns of a call are followed along
the stream (`Runs`), where each of the two waits comes down to one fact, that a wait goes on to the
first reading that ends it (`runs_iff_of_waits`). The two agree (`runs_iff_answers`), and what a call
does on the beginnings of the stream is what they say (`call_on_stream`): on all that are too short
for the reading it needs it is unanswered, and on all others it ends alike and has taken no more.
-/

namespace IdMint

/-- The first index from a start on with some property. -/
structure FirstFrom (P : Nat → Prop) (start i : Nat) : Prop where
  start_le : start ≤ i
  holds : P i
  before : ∀ k, start ≤ k → k < i → ¬ P k

namespace FirstFrom

variable {P : Nat → Prop} {start i : Nat}

theorem here (h : P start) : FirstFrom P start start := by
  refine ⟨Nat.le_refl _, h, ?_⟩
  intro k hge hlt
  omega

theorem eq_start (hfirst : FirstFrom P start i) (h : P start) : i = start := by
  have hle := hfirst.start_le
  by_cases hlt : start < i
  · exact absurd h (hfirst.before start (Nat.le_refl _) hlt)
  · omega

/-- A start without the property can be left behind. -/
theorem succ_iff (h : ¬ P start) : FirstFrom P (start + 1) i ↔ FirstFrom P start i := by
  constructor
  · rintro ⟨hle, hi, hbefore⟩
    refine ⟨by omega, hi, ?_⟩
    intro k hge hlt
    by_cases hk : k = start
    · rw [hk]
      exact h
    · exact hbefore k (by omega) hlt
  · rintro ⟨hle, hi, hbefore⟩
    have hne : start ≠ i := by
      rintro rfl
      exact h hi
    refine ⟨by omega, hi, ?_⟩
    intro k hge hlt
    exact hbefore k (by omega) hlt

end FirstFrom

namespace Generator

variable {s : Settings} {p : Progress} {r : Nat → Int64} {phase phase' : Phase} {start stop i : Nat}
  {events : List Event} {outcome : Outcome (UInt64 × Progress)}

/-! ## What a call should do -/

/-- The first reading is not refused, and this is the first one that is not behind the last issued
millisecond. -/
structure Reaches (s : Settings) (p : Progress) (r : Nat → Int64) (i : Nat) : Prop where
  allowed : s.policy.Allows p.lastMs (r 0)
  first : FirstFrom (fun k => p.lastMs.toInt ≤ (r k).toInt) 0 i

/-- The millisecond and the sequence that a call is to issue an id for, whose clock has reached the
last issued millisecond at an index, and the number of readings that this takes. -/
inductive Stamps (p : Progress) (r : Nat → Int64) (i : Nat) : Int64 → UInt16 → Nat → Prop
  | usedUp {j : Nat} (same : r i = p.lastMs) (full : p.sequence = 4095)
      (next : FirstFrom (fun k => p.lastMs.toInt < (r k).toInt) (i + 1) j) :
      Stamps p r i (r j) 0 (j + 1)
  | again (same : r i = p.lastMs) (left : p.sequence ≠ 4095) :
      Stamps p r i (r i) (p.sequence + 1) (i + 1)
  | later (later : p.lastMs.toInt < (r i).toInt) : Stamps p r i (r i) 0 (i + 1)

/-- How a call ends on a stream of readings, and how many of them it takes. An id comes with the
progress that it makes. -/
inductive Answers (s : Settings) (p : Progress) (r : Nat → Int64) :
    Outcome (UInt64 × Progress) → Nat → Prop
  | movedBackwards (refused : ¬ s.policy.Allows p.lastMs (r 0)) :
      Answers s p r (.error (.refused (.clockMovedBackwards p.lastMs (r 0)))) 1
  | beforeEpoch {i : Nat} (reaches : Reaches s p r i) (early : (r i).toInt < s.epochMs.toInt) :
      Answers s p r (.error (.refused (.clockBeforeEpoch s.epochMs (r i)))) (i + 1)
  | overTimeLimit {i : Nat} {t : Int64} {sequence : UInt16} {reads : Nat}
      (reaches : Reaches s p r i) (epoch : s.epochMs.toInt ≤ (r i).toInt)
      (stamps : Stamps p r i t sequence reads) (late : 2 ^ 41 ≤ t.toInt - s.epochMs.toInt) :
      Answers s p r (.error (.refused .overTimeLimit)) reads
  | issued {i : Nat} {t : Int64} {sequence : UInt16} {reads : Nat} {id : UInt64}
      (reaches : Reaches s p r i) (epoch : s.epochMs.toInt ≤ (r i).toInt)
      (stamps : Stamps p r i t sequence reads) (inTime : t.toInt - s.epochMs.toInt < 2 ^ 41)
      (number : (id.toNat : Int) = (t.toInt - s.epochMs.toInt) * 2 ^ 22 +
        s.dataCenter.toNat * 2 ^ 17 + s.worker.toNat * 2 ^ 12 + sequence.toNat) :
      Answers s p r (.ok (id, { lastMs := t, sequence })) reads

/-- The readings that a call needs are there: the first is refused, or one reaches the last issued
millisecond, and if that millisecond is used up, a later one passes it. -/
def Comes (s : Settings) (p : Progress) (r : Nat → Int64) : Prop :=
  ¬ s.policy.Allows p.lastMs (r 0) ∨
    ∃ i, Reaches s p r i ∧
      (s.epochMs.toInt ≤ (r i).toInt → r i = p.lastMs → p.sequence = 4095 →
        ∃ j, FirstFrom (fun k => p.lastMs.toInt < (r k).toInt) (i + 1) j)

/-! ## The turns of a call along a stream -/

/-- From a phase and an index on, a call ends so, with the turn before index `stop`. -/
inductive Runs (s : Settings) (p : Progress) (r : Nat → Int64) :
    Phase → Nat → Outcome (UInt64 × Progress) → Nat → Prop
  | finish {phase : Phase} {start : Nat} {events : List Event}
      {outcome : Outcome (UInt64 × Progress)}
      (turn : respond s p phase (r start) = (events, .finish outcome)) :
      Runs s p r phase start outcome (start + 1)
  | ask {phase phase' : Phase} {start stop : Nat} {events : List Event}
      {outcome : Outcome (UInt64 × Progress)}
      (turn : respond s p phase (r start) = (events, .ask phase'))
      (later : Runs s p r phase' (start + 1) outcome stop) : Runs s p r phase start outcome stop

theorem runs_iff_of_finish {outcome' : Outcome (UInt64 × Progress)}
    (h : respond s p phase (r start) = (events, .finish outcome')) :
    Runs s p r phase start outcome stop ↔ outcome = outcome' ∧ stop = start + 1 := by
  constructor
  · intro hruns
    cases hruns with
    | finish turn =>
      simp only [h, Prod.mk.injEq, Turn.finish.injEq] at turn
      exact ⟨turn.2.symm, rfl⟩
    | ask turn => simp [h] at turn
  · rintro ⟨rfl, rfl⟩
    exact .finish h

theorem runs_iff_of_ask (h : respond s p phase (r start) = (events, .ask phase')) :
    Runs s p r phase start outcome stop ↔ Runs s p r phase' (start + 1) outcome stop := by
  constructor
  · intro hruns
    cases hruns with
    | finish turn => simp [h] at turn
    | ask turn later =>
      simp only [h, Prod.mk.injEq, Turn.ask.injEq] at turn
      rw [turn.2]
      exact later
  · intro hruns
    exact .ask h hruns

/-- **A wait goes on to the first reading that ends it.** -/
theorem runs_iff_of_waits {P : Nat → Prop}
    (hwaits : ∀ k, ¬ P k → respond s p phase (r k) = ([], .ask phase)) :
    Runs s p r phase start outcome stop ↔
      ∃ i, FirstFrom P start i ∧ Runs s p r phase i outcome stop := by
  constructor
  · intro hruns
    generalize hphase : phase = asking at hruns
    induction hruns with
    | @finish asking start events outcome turn =>
      have hstart : P start := by
        apply Classical.byContradiction
        intro hnot
        rw [← hphase, hwaits start hnot] at turn
        simp at turn
      exact ⟨start, .here hstart, .finish turn⟩
    | @ask asking asking' start stop events outcome turn later ih =>
      by_cases hstart : P start
      · exact ⟨start, .here hstart, .ask turn later⟩
      · have hagain : phase = asking' := by
          rw [← hphase, hwaits start hstart, Prod.mk.injEq, Turn.ask.injEq] at turn
          exact turn.2
        obtain ⟨i, hfirst, hruns⟩ := ih hagain
        exact ⟨i, (FirstFrom.succ_iff hstart).mp hfirst, hphase ▸ hagain ▸ hruns⟩
  · rintro ⟨i, hfirst, hruns⟩
    -- By the length of the wait: the reading at its start is the one that ends it, or asks again.
    obtain ⟨wait, hwait⟩ := Nat.exists_eq_add_of_le hfirst.start_le
    induction wait generalizing start with
    | zero =>
      obtain rfl : i = start := hwait
      exact hruns
    | succ wait ih =>
      have hstart : ¬ P start := hfirst.before start (Nat.le_refl _) (by omega)
      rw [runs_iff_of_ask (hwaits start hstart)]
      exact ih ((FirstFrom.succ_iff hstart).mpr hfirst) (by omega)

theorem runs_nextMillisecond_iff :
    Runs s p r .nextMillisecond start outcome stop ↔
      ∃ j, FirstFrom (fun k => p.lastMs.toInt < (r k).toInt) start j ∧
        outcome = stamp s (r j) 0 ∧ stop = j + 1 := by
  rw [runs_iff_of_waits (P := fun k => p.lastMs.toInt < (r k).toInt)
    fun k hk => respond_of_notPast (Int.not_lt.mp hk)]
  constructor
  · rintro ⟨j, hfirst, hruns⟩
    exact ⟨j, hfirst, (runs_iff_of_finish (respond_of_past hfirst.holds)).mp hruns⟩
  · rintro ⟨j, hfirst, hends⟩
    exact ⟨j, hfirst, (runs_iff_of_finish (respond_of_past hfirst.holds)).mpr hends⟩

/-- The end of a call that a reading has sent on to its stamp, in what the stamp is for. -/
theorem eq_stamp_iff (hs : s.Valid) {t : Int64} {sequence : UInt16}
    (epoch : s.epochMs.toInt ≤ t.toInt) (room : sequence.toNat < 2 ^ 12) :
    outcome = stamp s t sequence ↔
      (2 ^ 41 ≤ t.toInt - s.epochMs.toInt ∧ outcome = .error (.refused .overTimeLimit)) ∨
      ∃ id : UInt64, t.toInt - s.epochMs.toInt < 2 ^ 41 ∧
        (id.toNat : Int) = (t.toInt - s.epochMs.toInt) * 2 ^ 22 +
          s.dataCenter.toNat * 2 ^ 17 + s.worker.toNat * 2 ^ 12 + sequence.toNat ∧
        outcome = .ok (id, { lastMs := t, sequence }) := by
  obtain ⟨elapsed, helapsed, hstamp⟩ := stamp_eq sequence hs.epoch_nonneg epoch
  rw [hstamp, ← helapsed]
  by_cases hlt : elapsed.toInt < 2 ^ 41
  · have hword : (elapsed.toUInt64.toNat : Int) = elapsed.toInt :=
      Layout.toNat_toUInt64_of_nonneg (by omega)
    have helapsedLt : elapsed.toUInt64.toNat < 2 ^ 41 := by omega
    have hpack := Layout.toNat_pack helapsedLt hs.dataCenter_lt hs.worker_lt room
    rw [if_pos hlt]
    constructor
    · rintro rfl
      refine .inr ⟨_, hlt, ?_, rfl⟩
      rw [hpack]
      omega
    · rintro (⟨hge, -⟩ | ⟨id, -, hid, rfl⟩)
      · omega
      · -- The number leaves no choice of the id.
        have heq : id = Layout.pack elapsed.toUInt64 s.dataCenter s.worker sequence := by
          rw [← UInt64.toNat_inj, hpack]
          omega
        rw [heq]
  · rw [if_neg hlt]
    constructor
    · rintro rfl
      exact .inl ⟨by omega, rfl⟩
    · rintro (⟨-, rfl⟩ | ⟨id, hlt', -⟩)
      · rfl
      · exact absurd hlt' hlt

/-- How a call ends that has reached the last issued millisecond at an index. -/
def Ends (s : Settings) (p : Progress) (r : Nat → Int64) (i : Nat)
    (outcome : Outcome (UInt64 × Progress)) (stop : Nat) : Prop :=
  ((r i).toInt < s.epochMs.toInt ∧
    outcome = .error (.refused (.clockBeforeEpoch s.epochMs (r i))) ∧ stop = i + 1) ∨
  (s.epochMs.toInt ≤ (r i).toInt ∧
    ∃ t sequence, Stamps p r i t sequence stop ∧ outcome = stamp s t sequence)

theorem runs_iff_ends (hp : p.Sound s) (accepts : phase.Accepts)
    (reached : p.lastMs.toInt ≤ (r i).toInt) :
    Runs s p r phase i outcome stop ↔ Ends s p r i outcome stop := by
  have hturn : respond s p phase (r i) = accept s p (r i) := respond_of_reached accepts reached
  have hlt := hp.sequence_lt
  unfold Ends
  by_cases hearly : (r i).toInt < s.epochMs.toInt
  · have hepoch : ¬ s.epochMs.toInt ≤ (r i).toInt := Int.not_le.mpr hearly
    rw [runs_iff_of_finish (hturn.trans (accept_of_early hearly))]
    simp only [hearly, hepoch, true_and, false_and, or_false]
  · have hepoch : s.epochMs.toInt ≤ (r i).toInt := Int.not_lt.mp hearly
    simp only [hearly, false_and, false_or, hepoch, true_and]
    by_cases hlater : p.lastMs.toInt < (r i).toInt
    · rw [runs_iff_of_finish (hturn.trans (accept_of_later hlater hepoch))]
      constructor
      · rintro ⟨rfl, rfl⟩
        exact ⟨r i, 0, .later hlater, rfl⟩
      · rintro ⟨t, sequence, hstamps, rfl⟩
        cases hstamps with
        | usedUp same | again same =>
          rw [same] at hlater
          omega
        | later => exact ⟨rfl, rfl⟩
    · have hsame : r i = p.lastMs := by
        rw [← Int64.toInt_inj]
        omega
      rw [hsame] at hturn hepoch
      by_cases hfull : p.sequence = 4095
      · have hasks := hturn.trans (accept_usedUp hp hepoch (by rw [hfull]; rfl))
        rw [← hsame] at hasks
        rw [runs_iff_of_ask hasks, runs_nextMillisecond_iff]
        constructor
        · rintro ⟨j, hnext, rfl, rfl⟩
          exact ⟨r j, 0, .usedUp hsame hfull hnext, rfl⟩
        · rintro ⟨t, sequence, hstamps, rfl⟩
          cases hstamps with
          | usedUp same full next => exact ⟨_, next, rfl, rfl⟩
          | again same left => exact absurd hfull left
          | later later => exact absurd later hlater
      · have hleft : p.sequence.toNat + 1 < 2 ^ 12 := by
          have hne : p.sequence.toNat ≠ (4095 : UInt16).toNat := by
            rwa [Ne, UInt16.toNat_inj]
          have hmax : (4095 : UInt16).toNat = 4095 := rfl
          omega
        have hends := hturn.trans (accept_again hp hepoch hleft)
        rw [← hsame] at hends
        rw [runs_iff_of_finish hends]
        constructor
        · rintro ⟨rfl, rfl⟩
          exact ⟨r i, p.sequence + 1, .again hsame hfull, rfl⟩
        · rintro ⟨t, sequence, hstamps, rfl⟩
          cases hstamps with
          | usedUp same full => exact absurd full hfull
          | again => exact ⟨rfl, rfl⟩
          | later later => exact absurd later hlater

/-- A whole call: it is refused over its first reading, or goes on to the first one that is not
behind the last issued millisecond. -/
theorem runs_entry_iff (hp : p.Sound s) (hfits : Checked.Fits (p.lastMs.toInt - (r 0).toInt)) :
    Runs s p r .entry 0 outcome stop ↔
      (¬ s.policy.Allows p.lastMs (r 0) ∧
        outcome = .error (.refused (.clockMovedBackwards p.lastMs (r 0))) ∧ stop = 1) ∨
      ∃ i, Reaches s p r i ∧ Ends s p r i outcome stop := by
  by_cases hreached : p.lastMs.toInt ≤ (r 0).toInt
  · have hallowed : s.policy.Allows p.lastMs (r 0) := Policy.allows_of_le hreached
    rw [runs_iff_ends hp Phase.accepts_entry hreached]
    constructor
    · intro hends
      exact .inr ⟨0, ⟨hallowed, .here hreached⟩, hends⟩
    · rintro (⟨hrefused, -⟩ | ⟨i, hreaches, hends⟩)
      · exact absurd hallowed hrefused
      · rw [hreaches.first.eq_start hreached] at hends
        exact hends
  · have behind : (r 0).toInt < p.lastMs.toInt := Int.not_le.mp hreached
    obtain ⟨driftMs, drift⟩ := Checked.exists_sub_of_fits hfits
    have hallows : s.policy.Allows p.lastMs (r 0) ↔ s.policy.tolerates driftMs = true :=
      Policy.allows_iff_tolerates behind drift
    have hturn := respond_entry_of_behind (s := s) behind
    unfold regress at hturn
    cases htolerates : s.policy.tolerates driftMs with
    | false =>
      have hrefused : ¬ s.policy.Allows p.lastMs (r 0) := by
        rw [hallows, htolerates]
        exact Bool.false_ne_true
      simp only [drift, htolerates, Bool.false_eq_true, if_false] at hturn
      rw [runs_iff_of_finish hturn]
      constructor
      · intro hends
        exact .inl ⟨hrefused, hends⟩
      · rintro (⟨-, hends⟩ | ⟨i, hreaches, -⟩)
        · exact hends
        · exact absurd hreaches.allowed hrefused
    | true =>
      have hallowed : s.policy.Allows p.lastMs (r 0) := hallows.mpr htolerates
      simp only [drift, htolerates, if_true] at hturn
      rw [runs_iff_of_ask hturn, runs_iff_of_waits (P := fun k => p.lastMs.toInt ≤ (r k).toInt)
        fun k hk => respond_of_stillBehind (Int.not_le.mp hk)]
      constructor
      · rintro ⟨i, hfirst, hruns⟩
        refine .inr ⟨i, ⟨hallowed, (FirstFrom.succ_iff hreached).mp hfirst⟩, ?_⟩
        exact (runs_iff_ends hp Phase.accepts_catchUp hfirst.holds).mp hruns
      · rintro (⟨hrefused, -⟩ | ⟨i, hreaches, hends⟩)
        · exact absurd hallowed hrefused
        · refine ⟨i, (FirstFrom.succ_iff hreached).mpr hreaches.first, ?_⟩
          exact (runs_iff_ends hp Phase.accepts_catchUp hreaches.first.holds).mpr hends

/-! ## The two agree -/

theorem Stamps.epoch_le {t : Int64} {sequence : UInt16} {reads : Nat}
    (h : Stamps p r i t sequence reads) (epoch : s.epochMs.toInt ≤ (r i).toInt) :
    s.epochMs.toInt ≤ t.toInt := by
  cases h with
  | usedUp same full next =>
    have hpast := next.holds
    rw [same] at epoch
    exact Int.le_trans epoch (Int.le_of_lt hpast)
  | again | later => exact epoch

theorem Stamps.sequence_lt {t : Int64} {sequence : UInt16} {reads : Nat} (hp : p.Sound s)
    (h : Stamps p r i t sequence reads) : sequence.toNat < 2 ^ 12 := by
  cases h with
  | usedUp | later => decide
  | again same left =>
    have hlt := hp.sequence_lt
    have hsucc := (increment_of_sound hp).2
    have hne : p.sequence.toNat ≠ (4095 : UInt16).toNat := by
      rwa [Ne, UInt16.toNat_inj]
    have hmax : (4095 : UInt16).toNat = 4095 := rfl
    omega

/-- **The turns of a call lead to what it should do.** -/
theorem runs_iff_answers (hs : s.Valid) (hp : p.Sound s)
    (hfits : Checked.Fits (p.lastMs.toInt - (r 0).toInt)) :
    Runs s p r .entry 0 outcome stop ↔ Answers s p r outcome stop := by
  rw [runs_entry_iff hp hfits]
  constructor
  · rintro (⟨hrefused, rfl, rfl⟩ |
      ⟨i, hreaches, ⟨hearly, rfl, rfl⟩ | ⟨hepoch, t, sequence, hstamps, ho⟩⟩)
    · exact .movedBackwards hrefused
    · exact .beforeEpoch hreaches hearly
    · rw [eq_stamp_iff hs (hstamps.epoch_le hepoch) (hstamps.sequence_lt hp)] at ho
      rcases ho with ⟨hlate, rfl⟩ | ⟨id, hinTime, hnumber, rfl⟩
      · exact .overTimeLimit hreaches hepoch hstamps hlate
      · exact .issued hreaches hepoch hstamps hinTime hnumber
  · intro hanswers
    cases hanswers with
    | movedBackwards refused => exact .inl ⟨refused, rfl, rfl⟩
    | beforeEpoch reaches early => exact .inr ⟨_, reaches, .inl ⟨early, rfl, rfl⟩⟩
    | overTimeLimit reaches epoch stamps late =>
      refine .inr ⟨_, reaches, .inr ⟨epoch, _, _, stamps, ?_⟩⟩
      rw [eq_stamp_iff hs (stamps.epoch_le epoch) (stamps.sequence_lt hp)]
      exact .inl ⟨late, rfl⟩
    | issued reaches epoch stamps inTime number =>
      refine .inr ⟨_, reaches, .inr ⟨epoch, _, _, stamps, ?_⟩⟩
      rw [eq_stamp_iff hs (stamps.epoch_le epoch) (stamps.sequence_lt hp)]
      exact .inr ⟨_, inTime, number, rfl⟩

/-- There is an answer exactly if the readings that it needs are there. -/
theorem exists_answers_iff (hs : s.Valid) (hp : p.Sound s) :
    (∃ outcome reads, Answers s p r outcome reads) ↔ Comes s p r := by
  constructor
  · rintro ⟨outcome, reads, hanswers⟩
    cases hanswers with
    | movedBackwards refused => exact .inl refused
    | @beforeEpoch i reaches early =>
      refine .inr ⟨i, reaches, ?_⟩
      intro epoch
      omega
    | @overTimeLimit i t sequence _ reaches epoch stamps
    | @issued i t sequence _ id reaches epoch stamps =>
      refine .inr ⟨i, reaches, ?_⟩
      intro _ hsame hfull
      cases stamps with
      | usedUp same full next => exact ⟨_, next⟩
      | again same left => exact absurd hfull left
      | later later =>
        rw [hsame] at later
        omega
  · rintro (hrefused | ⟨i, hreaches, hnext⟩)
    · exact ⟨_, _, .movedBackwards hrefused⟩
    · have hreached := hreaches.first.holds
      by_cases hearly : (r i).toInt < s.epochMs.toInt
      · exact ⟨_, _, .beforeEpoch hreaches hearly⟩
      · have hepoch : s.epochMs.toInt ≤ (r i).toInt := Int.not_lt.mp hearly
        obtain ⟨t, sequence, reads, hstamps⟩ :
            ∃ t sequence reads, Stamps p r i t sequence reads := by
          by_cases hsame : r i = p.lastMs
          · by_cases hfull : p.sequence = 4095
            · obtain ⟨j, hnext⟩ := hnext hepoch hsame hfull
              exact ⟨_, _, _, .usedUp hsame hfull hnext⟩
            · exact ⟨_, _, _, .again hsame hfull⟩
          · rw [← Int64.toInt_inj] at hsame
            exact ⟨_, _, _, .later (by omega)⟩
        rcases (eq_stamp_iff hs (hstamps.epoch_le hepoch) (hstamps.sequence_lt hp)).mp rfl with
          ⟨hlate, -⟩ | ⟨id, hinTime, hnumber, -⟩
        · exact ⟨_, _, .overTimeLimit hreaches hepoch hstamps hlate⟩
        · exact ⟨_, _, .issued hreaches hepoch hstamps hinTime hnumber⟩

/-! ## The beginnings of a stream -/

/-- So many readings of a stream, from an index on. -/
def readings (r : Nat → Int64) (start n : Nat) : List Reading :=
  (List.range' start n).map fun k => .time (r k)

theorem readings_succ (r : Nat → Int64) (start n : Nat) :
    readings r start (n + 1) = .time (r start) :: readings r (start + 1) n := by
  rw [readings, List.range'_succ, List.map_cons, readings]

theorem Runs.start_lt (h : Runs s p r phase start outcome stop) : start < stop := by
  induction h with
  | finish => exact Nat.lt_succ_self _
  | ask _ _ ih => omega

/-- What comes to its end before the call does leaves it unanswered. -/
theorem Runs.unanswered (h : Runs s p r phase start outcome stop) {n : Nat}
    (hn : start + n < stop) :
    (answer s p phase (readings r start n)).outcome = .error .unanswered := by
  induction h generalizing n with
  | finish turn =>
    obtain rfl : n = 0 := by omega
    rfl
  | ask turn _ ih =>
    cases n with
    | zero => rfl
    | succ n =>
      rw [readings_succ, answer_of_ask turn]
      exact ih (by omega)

theorem Runs.answered (h : Runs s p r phase start outcome stop) {n : Nat}
    (hn : stop ≤ start + n) :
    (answer s p phase (readings r start n)).outcome = outcome ∧
      start + (answer s p phase (readings r start n)).reads = stop := by
  have hlt := h.start_lt
  induction h generalizing n with
  | finish turn =>
    obtain ⟨n, rfl⟩ := Nat.exists_eq_succ_of_ne_zero (by omega : n ≠ 0)
    rw [readings_succ, answer_of_finish turn]
    exact ⟨rfl, rfl⟩
  | ask turn later ih =>
    obtain ⟨n, rfl⟩ := Nat.exists_eq_succ_of_ne_zero (by omega : n ≠ 0)
    obtain ⟨houtcome, hreads⟩ := @ih n (by omega) later.start_lt
    rw [readings_succ, answer_of_ask turn]
    exact ⟨houtcome, by simp only; omega⟩

/-- What is decided on a beginning is decided on the stream. -/
theorem exists_runs_of_answered (n : Nat)
    (h : (answer s p phase (readings r start n)).outcome ≠ .error .unanswered) :
    ∃ outcome stop, Runs s p r phase start outcome stop := by
  induction n generalizing phase start with
  | zero => exact absurd rfl h
  | succ n ih =>
    rw [readings_succ] at h
    cases hturn : respond s p phase (r start) with
    | mk events turn =>
      cases turn with
      | finish outcome => exact ⟨_, _, .finish hturn⟩
      | ask phase' =>
        rw [answer_of_ask hturn] at h
        obtain ⟨outcome, stop, hruns⟩ := ih h
        exact ⟨outcome, stop, .ask hturn hruns⟩

/-! ## Calls -/

/-- How far a generator has come after a call that ended so. -/
def after (p : Progress) : Outcome (UInt64 × Progress) → Progress
  | .ok (_, q) => q
  | .error _ => p

/-- On a stream, a call ends so and takes so many readings: it is unanswered before it has got them,
and however many more there are, it takes no further one and makes no other progress. -/
structure Returns (g : Generator) (r : Nat → Int64) (outcome : Outcome (UInt64 × Progress))
    (reads : Nat) : Prop where
  answered : outcome ≠ .error .unanswered
  early : ∀ n < reads, (g.call (readings r 0 n)).1.outcome = .error .unanswered
  ends : ∀ n, reads ≤ n →
    (g.call (readings r 0 n)).1.outcome = outcome.map Prod.fst ∧
      (g.call (readings r 0 n)).1.reads = reads ∧
      (g.call (readings r 0 n)).2 = { g with progress := after g.progress outcome }

theorem Returns.reads_le {g : Generator} {outcome outcome' : Outcome (UInt64 × Progress)}
    {reads reads' : Nat} (h : g.Returns r outcome reads) (h' : g.Returns r outcome' reads') :
    reads ≤ reads' := by
  apply Nat.le_of_not_lt
  intro hlt
  have hearly := h.early reads' hlt
  rw [(h'.ends reads' (Nat.le_refl _)).1] at hearly
  apply h'.answered
  cases outcome' with
  | ok answered => simp [Except.map] at hearly
  | error f => simpa [Except.map] using hearly

theorem Returns.unique {g : Generator} {outcome outcome' : Outcome (UInt64 × Progress)}
    {reads reads' : Nat} (h : g.Returns r outcome reads) (h' : g.Returns r outcome' reads') :
    outcome = outcome' ∧ reads = reads' := by
  obtain rfl : reads = reads' := Nat.le_antisymm (h.reads_le h') (h'.reads_le h)
  refine ⟨?_, rfl⟩
  obtain ⟨houtcome, -, hafter⟩ := h.ends reads (Nat.le_refl _)
  obtain ⟨houtcome', -, hafter'⟩ := h'.ends reads (Nat.le_refl _)
  rw [houtcome] at houtcome'
  rw [hafter, Generator.mk.injEq] at hafter'
  have hprogress := hafter'.2.2.1
  cases outcome with
  | ok answered =>
    cases outcome' with
    | ok answered' =>
      simp only [Except.map, Except.ok.injEq] at houtcome'
      exact congrArg Except.ok (Prod.ext houtcome' hprogress)
    | error f => simp [Except.map] at houtcome'
  | error f =>
    cases outcome' with
    | ok answered' => simp [Except.map] at houtcome'
    | error f' => simpa [Except.map] using houtcome'

theorem Answers.returns {g : Generator} (hg : g.Sound) (hlive : g.poisoned = false)
    (hfits : Checked.Fits (g.progress.lastMs.toInt - (r 0).toInt)) {reads : Nat}
    (h : Answers g.settings g.progress r outcome reads) : g.Returns r outcome reads := by
  have hruns := (runs_iff_answers hg.settings hg.progress hfits).mpr h
  have hsettle : g.settle outcome = { g with progress := after g.progress outcome } := by
    cases h <;> rfl
  refine ⟨?_, ?_, ?_⟩
  · cases h <;> simp
  · intro n hn
    rw [call_of_live hlive, Report.map, hruns.unanswered (by omega)]
    rfl
  · intro n hn
    obtain ⟨houtcome, hreads⟩ := hruns.answered (by omega : reads ≤ 0 + n)
    rw [call_of_live hlive]
    refine ⟨congrArg (Except.map Prod.fst) houtcome, by simpa [Report.map] using hreads, ?_⟩
    rw [houtcome, hsettle]

theorem exists_answers_of_answered {g : Generator} (hg : g.Sound) (hlive : g.poisoned = false)
    (hfits : Checked.Fits (g.progress.lastMs.toInt - (r 0).toInt)) (n : Nat)
    (h : (g.call (readings r 0 n)).1.outcome ≠ .error .unanswered) :
    ∃ outcome reads, Answers g.settings g.progress r outcome reads := by
  have hanswered : (answer g.settings g.progress .entry (readings r 0 n)).outcome ≠
      .error .unanswered := by
    intro hnot
    apply h
    rw [call_of_live hlive, Report.map, hnot]
    rfl
  obtain ⟨outcome, stop, hruns⟩ := exists_runs_of_answered n hanswered
  exact ⟨outcome, stop, (runs_iff_answers hg.settings hg.progress hfits).mp hruns⟩

/-- **What a call does on a stream of readings.** It ends as `Answers` says, after as many readings,
and in no other way; and it ends at all exactly if the readings that it needs come. -/
theorem call_on_stream {g : Generator} (hg : g.Reached) (hlive : g.poisoned = false)
    (r : Nat → Int64) (hfits : Checked.Fits (g.progress.lastMs.toInt - (r 0).toInt)) :
    (∀ outcome reads,
      g.Returns r outcome reads ↔ Answers g.settings g.progress r outcome reads) ∧
    ((∃ n, (g.call (readings r 0 n)).1.outcome ≠ .error .unanswered) ↔
      Comes g.settings g.progress r) := by
  have hs := hg.sound
  constructor
  · intro outcome reads
    constructor
    · intro hreturns
      have hanswered : (g.call (readings r 0 reads)).1.outcome ≠ .error .unanswered := by
        rw [(hreturns.ends reads (Nat.le_refl _)).1]
        have hne := hreturns.answered
        cases outcome with
        | ok answered => simp [Except.map]
        | error f => simpa [Except.map] using hne
      obtain ⟨outcome', reads', hanswers⟩ :=
        exists_answers_of_answered hs hlive hfits reads hanswered
      obtain ⟨rfl, rfl⟩ := hreturns.unique (hanswers.returns hs hlive hfits)
      exact hanswers
    · intro hanswers
      exact hanswers.returns hs hlive hfits
  · rw [← exists_answers_iff hs.settings hs.progress]
    constructor
    · rintro ⟨n, hanswered⟩
      exact exists_answers_of_answered hs hlive hfits n hanswered
    · rintro ⟨outcome, reads, hanswers⟩
      refine ⟨reads, ?_⟩
      rw [((hanswers.returns hs hlive hfits).ends reads (Nat.le_refl _)).1]
      cases hanswers <;> simp [Except.map]

/-- A clock that is two milliseconds behind 10000, reaches it, goes back by a second, and is at some
time from then on. -/
def setBackTwice (ms : Int64) : Nat → Int64
  | 0 => 9998
  | 1 => 10000
  | 2 => 9000
  | _ + 3 => ms

/-- A wait for the clock that ends on a millisecond that is used up, and a wait for the next one
during which the clock goes back again. It ends in the next millisecond, or after the time is up. -/
theorem call_on_stream_through_both_waits :
    let g : Generator :=
      { settings := { policy := .wait 5 }, progress := { lastMs := 10000, sequence := 4095 } }
    g.Returns (setBackTwice 10001) (.ok (41947234304, { lastMs := 10001, sequence := 0 })) 4 ∧
      g.Returns (setBackTwice 2199023255552) (.error (.refused .overTimeLimit)) 4 := by
  intro g
  have built : (({ policy := .wait 5 } : Blueprint).build [.time 10000]).outcome =
      .ok { settings := { policy := .wait 5 } } := by rfl
  have first := Reached.called [.time 10000] (.built built)
  have reached : g.Reached :=
    first.used_up rfl ⟨by decide, by decide, by decide⟩ rfl 4095 (by decide)
  have allowed : (Policy.wait 5).Allows 10000 9998 := .inr (by decide)
  have hfits : Checked.Fits ((10000 : Int64).toInt - (9998 : Int64).toInt) := by decide
  have reaches (ms : Int64) : Reaches g.settings g.progress (setBackTwice ms) 1 := by
    refine ⟨allowed, Nat.zero_le 1, (by decide : (10000 : Int64).toInt ≤ (10000 : Int64).toInt), ?_⟩
    intro k _ hk
    obtain rfl : k = 0 := by omega
    exact (by decide : ¬ (10000 : Int64).toInt ≤ (9998 : Int64).toInt)
  have next (ms : Int64) (later : (10000 : Int64).toInt < ms.toInt) :
      FirstFrom (fun k => g.progress.lastMs.toInt < (setBackTwice ms k).toInt) 2 3 := by
    refine ⟨Nat.le_succ 2, later, ?_⟩
    intro k hge hk
    obtain rfl : k = 2 := by omega
    exact (by decide : ¬ (10000 : Int64).toInt < (9000 : Int64).toInt)
  constructor
  · refine ((call_on_stream reached rfl (setBackTwice 10001) hfits).1 _ _).mpr ?_
    exact .issued (reaches _) (by decide) (.usedUp rfl rfl (next _ (by decide))) (by decide)
      (by decide)
  · refine ((call_on_stream reached rfl (setBackTwice 2199023255552) hfits).1 _ _).mpr ?_
    exact .overTimeLimit (reaches _) (by decide) (.usedUp rfl rfl (next _ (by decide))) (by decide)

end Generator
end IdMint

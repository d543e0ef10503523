import Mathlib.Data.List.Induction
import Mathlib.Data.List.Nodup
import IdMint.Proofs.Blueprint.Verdict
import IdMint.Proofs.Instant
import IdMint.Proofs.Session

/-!
# The last word counts

A blueprint is described by any number of settings in any order, and what comes of it is what was
said last on each topic. Five topics are enough to say all that there is in a blueprint
(`eq_of_word`), and a setting changes what stands there on its own topic and on no other
(`word_set`). Everything else is read off these two: the last word on a topic is what stands there
(`word_configure`), settings on different topics may change places, and a list of settings may be
cut down to its last words.

An epoch that is given as an instant is on the same topic as one given in milliseconds. What it says
is the millisecond that the instant lies in.
-/

namespace IdMint

/-! ## Topics -/

/-- What a setting is about. -/
inductive Topic where
  | epoch
  | dataCenter
  | worker
  | policy
  | clock
  deriving DecidableEq, Repr

def Topic.all : List Topic := [epoch, dataCenter, worker, policy, clock]

theorem Topic.mem_all (t : Topic) : t ∈ all := by
  cases t <;> decide

namespace Setting

/-- The two ways to give an epoch are about the same thing. -/
def topic : Setting → Topic
  | epoch _ | start _ => .epoch
  | dataCenter _ => .dataCenter
  | worker _ => .worker
  | policy _ => .policy
  | clock _ => .clock

/-- The setting in plain numbers. Only an instant is not one already. -/
def plain : Setting → Setting
  | start instant => epoch instant.toMs
  | s => s

/-- The last of some settings that is about a topic. -/
def lastWord? (t : Topic) (said : List Setting) : Option Setting :=
  (said.filter fun s => s.topic = t).getLast?

/-- What is left of some settings when only the last word on each topic is kept. -/
def lastWords (said : List Setting) : List Setting := Topic.all.filterMap fun t => lastWord? t said

/-! ## Last words -/

variable {t : Topic} {s : Setting} {said : List Setting}

theorem lastWord?_concat (t : Topic) (said : List Setting) (s : Setting) :
    lastWord? t (said ++ [s]) = if s.topic = t then some s else lastWord? t said := by
  by_cases h : s.topic = t <;> simp [lastWord?, List.filter_append, h]

theorem topic_of_lastWord? (h : lastWord? t said = some s) : s.topic = t := by
  have hmem := List.mem_of_getLast? h
  exact of_decide_eq_true (List.mem_filter.mp hmem).2

theorem mem_lastWords : s ∈ lastWords said ↔ lastWord? s.topic said = some s := by
  rw [lastWords, List.mem_filterMap]
  constructor
  · rintro ⟨t, -, ht⟩
    rw [topic_of_lastWord? ht]
    exact ht
  · intro h
    exact ⟨s.topic, Topic.mem_all _, h⟩

/-- Settings that are picked for different things, each with a topic of its own, have all different
topics. -/
theorem nodup_topic_filterMap {α : Type} {l : List α} (hl : l.Nodup) {pick : α → Option Setting}
    (h : ∀ a a' s s', pick a = some s → pick a' = some s' → s.topic = s'.topic → a = a') :
    ((l.filterMap pick).map topic).Nodup := by
  rw [List.map_filterMap]
  refine hl.filterMap ?_
  intro a a' t ha ha'
  simp only [Option.mem_def, Option.map_eq_some_iff] at ha ha'
  obtain ⟨s, hs, rfl⟩ := ha
  obtain ⟨s', hs', htopic⟩ := ha'
  exact h a a' s s' hs hs' htopic.symm

theorem nodup_topic_lastWords (said : List Setting) : ((lastWords said).map topic).Nodup := by
  refine nodup_topic_filterMap (by decide) ?_
  intro t t' s s' hs hs' htopic
  rw [← topic_of_lastWord? hs, ← topic_of_lastWord? hs', htopic]

/-- Where no topic comes twice, every word is a last word. -/
theorem lastWord?_eq_some_iff (h : (said.map topic).Nodup) :
    lastWord? t said = some s ↔ s ∈ said ∧ s.topic = t := by
  induction said using List.reverseRecOn with
  | nil => simp [lastWord?]
  | append_singleton init x ih =>
    rw [List.map_append, List.nodup_append] at h
    have hx : ∀ y ∈ init, y.topic ≠ x.topic := fun y hy =>
      h.2.2 _ (List.mem_map_of_mem hy) _ List.mem_cons_self
    rw [lastWord?_concat, List.mem_append, List.mem_singleton]
    by_cases htopic : x.topic = t
    · rw [if_pos htopic, Option.some.injEq]
      constructor
      · rintro rfl
        exact ⟨.inr rfl, htopic⟩
      · rintro ⟨hs | rfl, ht⟩
        · exact absurd (ht.trans htopic.symm) (hx s hs)
        · rfl
    · rw [if_neg htopic, ih h.1]
      constructor
      · rintro ⟨hs, ht⟩
        exact ⟨.inl hs, ht⟩
      · rintro ⟨hs | rfl, ht⟩
        · exact ⟨hs, ht⟩
        · exact absurd ht htopic

theorem lastWord?_of_perm {once : List Setting} (h : once.Perm (lastWords said)) (t : Topic) :
    lastWord? t once = lastWord? t said := by
  have hnodup : (once.map topic).Nodup := (h.map topic).nodup_iff.mpr (nodup_topic_lastWords said)
  refine Option.ext fun s => ?_
  rw [lastWord?_eq_some_iff hnodup, h.mem_iff, mem_lastWords]
  constructor
  · rintro ⟨hs, rfl⟩
    exact hs
  · intro hs
    rw [topic_of_lastWord? hs]
    exact ⟨hs, rfl⟩

end Setting

/-! ## What stands in a blueprint -/

namespace Blueprint

open Setting (lastWord? lastWords)

/-- What stands in a blueprint on a topic, as the setting that puts it there. -/
def word (b : Blueprint) : Topic → Setting
  | .epoch => .epoch b.epochMs
  | .dataCenter => .dataCenter b.dataCenter
  | .worker => .worker b.worker
  | .policy => .policy b.policy
  | .clock => .clock b.clock

theorem eq_of_word {b c : Blueprint} (h : ∀ t, b.word t = c.word t) : b = c := by
  obtain ⟨epochMs, dataCenter, worker, policy, clock⟩ := b
  obtain ⟨epochMs', dataCenter', worker', policy', clock'⟩ := c
  obtain rfl := Setting.epoch.inj (h .epoch)
  obtain rfl := Setting.dataCenter.inj (h .dataCenter)
  obtain rfl := Setting.worker.inj (h .worker)
  obtain rfl := Setting.policy.inj (h .policy)
  obtain rfl := Setting.clock.inj (h .clock)
  rfl

/-- A setting is heard on its own topic and on no other. -/
theorem word_set (b : Blueprint) (s : Setting) (t : Topic) :
    (b.set s).word t = if s.topic = t then s.plain else b.word t := by
  cases s <;> cases t <;> rfl

theorem configure_concat (b : Blueprint) (said : List Setting) (s : Setting) :
    b.configure (said ++ [s]) = (b.configure said).set s := by
  rw [configure, List.foldl_append]
  rfl

/-- **What stands in a blueprint on a topic is the last word on it**, and what stood there at first
if there was none. -/
theorem word_configure (b : Blueprint) (said : List Setting) (t : Topic) :
    (b.configure said).word t = ((lastWord? t said).map Setting.plain).getD (b.word t) := by
  induction said using List.reverseRecOn with
  | nil => rfl
  | append_singleton init s ih =>
    rw [configure_concat, word_set, Setting.lastWord?_concat]
    split
    · rfl
    · exact ih

theorem configure_congr {said other : List Setting}
    (h : ∀ t, lastWord? t said = lastWord? t other) (b : Blueprint) :
    b.configure said = b.configure other := by
  refine eq_of_word fun t => ?_
  rw [word_configure, word_configure, h t]

/-- Settings on different topics do not hear of each other. -/
theorem set_comm (b : Blueprint) {s s' : Setting} (h : s.topic ≠ s'.topic) :
    (b.set s).set s' = (b.set s').set s := by
  refine eq_of_word fun t => ?_
  simp only [word_set]
  by_cases hs : s.topic = t
  · rw [if_pos hs, if_neg (fun hs' => h (hs.trans hs'.symm)), if_pos hs]
  · rw [if_neg hs, if_neg hs]

theorem configure_swap (b : Blueprint) (before after : List Setting) {s s' : Setting}
    (h : s.topic ≠ s'.topic) :
    b.configure (before ++ s :: s' :: after) = b.configure (before ++ s' :: s :: after) := by
  simp only [configure, List.foldl_append, List.foldl_cons]
  rw [set_comm _ h]

end Blueprint

/-! ## Nothing is looked at before the end -/

theorem Blueprint.verdict (b : Blueprint) (nowMs : Int64) (rest : List Reading) :
    Blueprint.Verdict b nowMs (b.build (.time nowMs :: rest)) := by
  cases hfault : b.firstFault? nowMs with
  | none => exact .ofBuildable (Blueprint.firstFault?_eq_none_iff.mp hfault) rest
  | some cause => exact .ofFault hfault rest

namespace Session

variable {s : Session} {handle name : String} {origin : Origin} {start : Blueprint}
  {said : List Setting}

theorem get?_clocks_advance {clock : ClockName} (h : .named name ≠ clock) (reads : Nat) :
    (s.advance clock reads).clocks.get? name = s.clocks.get? name := by
  cases clock with
  | system => rfl
  | named other =>
    have hname : name ≠ other := fun heq => h (congrArg ClockName.named heq)
    simp only [advance, changeClock, Directory.get?_set, if_neg hname]

/-- A clock that was named and then replaced is not read. -/
theorem get?_clocks_build (horigin : origin.blueprint = .ok start)
    (h : .named name ≠ (start.configure said).clock) :
    (s.build handle origin said).2.clocks.get? name = s.clocks.get? name := by
  generalize hb : start.configure said = b at h
  cases hbuilt : (b.build (s.supply b.clock)).outcome with
  | error f =>
    rw [build_of_error horigin hb hbuilt]
    exact get?_clocks_advance h _
  | ok g =>
    rw [build_of_ok horigin hb hbuilt]
    exact get?_clocks_advance h _

/-- What becomes of settings is judged when all of them have been said: the report is that of the
blueprint that they make in the end, at the next reading of the clock that it names in the end, and
no other clock is read. -/
structure JudgedAtTheEnd (s : Session) (handle : String) (origin : Origin) (said : List Setting)
    (b : Blueprint) : Prop where
  report : (s.build handle origin said).1 =
    (b.build (s.supply b.clock)).map fun g => .settings g.settings
  verdict : ∀ nowMs rest, s.supply b.clock = .time nowMs :: rest →
    b.Verdict nowMs (b.build (s.supply b.clock))
  clocks : ∀ name, .named name ≠ b.clock →
    (s.build handle origin said).2.clocks.get? name = s.clocks.get? name

theorem judgedAtTheEnd (s : Session) (handle : String) (said : List Setting)
    (h : origin.blueprint = .ok start) :
    s.JudgedAtTheEnd handle origin said (start.configure said) where
  report := by simp only [build, h]
  verdict := by
    intro nowMs rest hsupply
    rw [hsupply]
    exact Blueprint.verdict _ nowMs rest
  clocks := fun _ hname => get?_clocks_build h hname

end Session

/-! ## The last word -/

namespace Blueprint

open Setting (lastWord? lastWords)

/-- **The last word on each topic counts, and nothing else that was said.** The last words alone, in
any order, make the same generator or the same refusal of any blueprint; two settings in a row may
change places unless they are about the same thing; an instant says the millisecond that it lies in,
as far as the calendar goes; and nothing is judged and no clock is read before all has been said. -/
theorem last_word_counts :
    (∀ (b : Blueprint) (said : List Setting),
      (∀ t, (b.configure said).word t = ((lastWord? t said).map Setting.plain).getD (b.word t)) ∧
      ∀ once, once.Perm (lastWords said) → ∀ supply,
        (b.configure once).build supply = (b.configure said).build supply) ∧
    (∀ (b : Blueprint) (before after : List Setting) (s s' : Setting), s.topic ≠ s'.topic →
      ∀ supply, (b.configure (before ++ s :: s' :: after)).build supply =
        (b.configure (before ++ s' :: s :: after)).build supply) ∧
    (∀ (seconds : Int) (nanos : Nat), (Calendar.Moment.ofMs? (seconds * 1000)).isSome →
      nanos < 2000000000 →
      (Instant.ofSeconds seconds nanos).LiesIn (Instant.ofSeconds seconds nanos).toMs.toInt) ∧
    ∀ (s : Session) (handle : String) (origin : Origin) (start : Blueprint) (said : List Setting),
      origin.blueprint = .ok start →
      s.JudgedAtTheEnd handle origin said (start.configure said) := by
  refine ⟨?_, ?_, ?_, ?_⟩
  · intro b said
    refine ⟨word_configure b said, ?_⟩
    intro once hperm supply
    rw [configure_congr (Setting.lastWord?_of_perm hperm)]
  · intro b before after s s' htopic supply
    rw [configure_swap b before after htopic]
  · intro seconds nanos hcalendar hnanos
    exact Instant.liesIn_toMs_ofSeconds hcalendar hnanos
  · intro s handle origin start said horigin
    exact Session.judgedAtTheEnd s handle said horigin

/-- Three epochs, one of them negative and one an instant before 1970, a worker that is out of range
until it is said again, and two clocks, of which the first would refuse the epoch that counts. -/
theorem last_word_counts_over_three_epochs :
    let start : Setting := .start (.ofSeconds 2 999999)
    let said : List Setting := [.epoch (-1), .clock (.named "early"), .worker 40,
      .start (.ofSeconds (-2) 999999999), .dataCenter 7, start, .worker 3, .clock (.named "late")]
    let once : List Setting := [.clock (.named "late"), .worker 3, start, .dataCenter 7]
    let s : Session := { clocks := { entries :=
      [("early", { now? := some 1 }), ("late", { queue := [{ ms := 5000 }] })] } }
    once.Perm (lastWords said) ∧
      (({} : Blueprint).configure once).build [.time 5000] =
        (({} : Blueprint).configure said).build [.time 5000] ∧
      (({} : Blueprint).configure said).word .epoch = .epoch 2000 ∧
      (Setting.worker 40).topic ≠ (Setting.dataCenter 7).topic ∧
      (({} : Blueprint).configure [.worker 40, .dataCenter 7]).build [.time 0] =
        (({} : Blueprint).configure [.dataCenter 7, .worker 40]).build [.time 0] ∧
      (Calendar.Moment.ofMs? (-2 * 1000)).isSome ∧ 999999999 < 2000000000 ∧
      (Instant.ofSeconds (-2) 999999999).LiesIn
        (Instant.ofSeconds (-2) 999999999).toMs.toInt ∧
      Origin.blank.blueprint = .ok {} ∧
      s.JudgedAtTheEnd "g" .blank said (({} : Blueprint).configure said) := by
  intro start said once s
  have hperm : once.Perm (lastWords said) := by decide
  have hcalendar : (Calendar.Moment.ofMs? (-2 * 1000)).isSome := by decide
  exact ⟨hperm, (last_word_counts.1 {} said).2 once hperm [.time 5000],
    (last_word_counts.1 {} said).1 .epoch, by decide,
    last_word_counts.2.1 {} [] [] (.worker 40) (.dataCenter 7) (by decide) [.time 0],
    hcalendar, by decide, last_word_counts.2.2.1 (-2) 999999999 hcalendar (by decide), rfl,
    last_word_counts.2.2.2 s "g" .blank {} said rfl⟩

end Blueprint
end IdMint

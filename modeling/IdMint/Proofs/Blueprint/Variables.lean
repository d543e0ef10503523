import IdMint.Blueprint.Environment
import IdMint.Proofs.Blueprint.LastWord
import IdMint.Proofs.Text.Spelling

/-!
# What variables say

A look-up gives each of the four variables a text or none, and a text is good if it spells a word,
for the largest drift one that is not negative. `Sets` and `Faulty` say so by way of spellings, with
no regard to how a text is read. `Variable.consult` goes through the variables in their order. If it
meets a faulty one it ends there: the cause names that variable and quotes it, and what comes after
it is not looked up. If it meets none, the blueprint says what the variables say, on each topic
alike, and for the rest what every blueprint says to begin with.

A text of digits that is out of range for a generator is still a good text. The variables that were
asked for are all that the answer rests on (`consult_congr`), so a list of names that was too short
would be noticed.
-/

namespace IdMint

open Text (Numeral.Spells Numeral.write)

/-! ## Canonical numbers -/

namespace Text.Numeral

theorem toString_eq_write (w : Int64) : toString w = String.ofList (write w.toInt) := by
  show w.toInt.repr = _
  cases w.toInt with
  | ofNat n =>
    have hwrite : write (Int.ofNat n) = digits n := if_neg (Int.not_lt.mpr (Int.natCast_nonneg n))
    rw [hwrite]
    exact Nat.repr_eq_ofList_toDigits
  | negSucc n =>
    have hwrite : write (Int.negSucc n) = '-' :: digits (n + 1) := if_pos (Int.negSucc_lt_zero n)
    rw [hwrite, Int.repr, Nat.repr_eq_ofList_toDigits]
    exact String.toList_inj.mp (by simp [digits])

end Text.Numeral

namespace Variable

/-! ## Good and faulty variables -/

section

variable (lookup : String → Option String)

/-- A variable is set to a spelling of a word. -/
def Sets (v : Variable) (value : Int64) : Prop :=
  ∃ text, lookup v.name = some text ∧ Numeral.Spells text.toList value.toInt

/-- A variable is set and no good, and this is how it is quoted. What spells no word is quoted as it
stands; a negative drift is a good numeral, and quoted as the number that it spells. -/
inductive Faulty : Variable → String → Prop where
  | misspelled {v : Variable} {text : String} : lookup v.name = some text →
      (∀ value : Int64, ¬ Numeral.Spells text.toList value.toInt) → Faulty v text
  | negative {value : Int64} : Sets lookup maxDrift value → value.toInt < 0 →
      Faulty maxDrift (String.ofList (Numeral.write value.toInt))

/-- A variable is either not set, or set to a number that it accepts. -/
def Fine (v : Variable) : Prop := ∀ quoted, ¬ Faulty lookup v quoted

end

/-- The topic of a variable. To set the largest drift is to choose the policy. -/
def topic : Variable → Topic
  | epoch => .epoch
  | dataCenter => .dataCenter
  | worker => .worker
  | maxDrift => .policy

/-- What a variable says that is set to a number. -/
def meaning (v : Variable) (value : Int64) : Setting :=
  match v with
  | epoch => .epoch value
  | dataCenter => .dataCenter value
  | worker => .worker value
  | maxDrift => .policy (.wait value)

theorem topic_meaning (v : Variable) (value : Int64) : (v.meaning value).topic = v.topic := by
  cases v <;> rfl

theorem plain_meaning (v : Variable) (value : Int64) : (v.meaning value).plain = v.meaning value := by
  cases v <;> rfl

theorem mem_all (v : Variable) : v ∈ all := by
  cases v <;> decide

theorem topic_inj {v u : Variable} (h : v.topic = u.topic) : v = u := by
  cases v <;> cases u <;> first | rfl | exact nomatch h

theorem topic_ne_clock (v : Variable) : v.topic ≠ .clock := by
  cases v <;> decide

/-! ## One variable -/

variable {lookup : String → Option String} {v : Variable} {value : Int64} {text quoted : String}

theorem setting_eq (h : v = maxDrift → 0 ≤ value.toInt) : v.setting value = .ok (v.meaning value) := by
  cases v with
  | maxDrift =>
    have hnot : ¬ value < 0 := by
      rw [Int64.lt_iff_toInt_lt, Int64.toInt_zero]
      exact Int.not_lt.mpr (h rfl)
    rw [setting, if_neg hnot]
    rfl
  | epoch => rfl
  | dataCenter => rfl
  | worker => rfl

theorem read_of_spells (h : Numeral.Spells text.toList value.toInt) :
    v.read text = v.setting value := by
  rw [read, Text.Numeral.readWord?_trim_eq_some_iff.mpr h]

theorem read_of_misspelled (h : ∀ value : Int64, ¬ Numeral.Spells text.toList value.toInt) :
    v.read text = .error (.invalidVariable v.name text) := by
  have hnone : Text.Numeral.readWord? (Text.Blank.trim text.toList) = none := by
    rw [Option.eq_none_iff_forall_ne_some]
    intro value hvalue
    exact h value (Text.Numeral.readWord?_trim_eq_some_iff.mp hvalue)
  rw [read, hnone]

/-- What a look-up finds of one variable, if it is set. -/
def heard (lookup : String → Option String) (v : Variable) : Option (Except MintError Setting) :=
  (lookup v.name).map v.read

theorem heard_of_faulty (h : Faulty lookup v quoted) :
    heard lookup v = some (.error (.invalidVariable v.name quoted)) := by
  cases h with
  | misspelled hset hnot => rw [heard, hset, Option.map_some, read_of_misspelled hnot]
  | @negative value hsets hneg =>
    obtain ⟨text, hset, hspells⟩ := hsets
    have hlt : value < 0 := by rwa [Int64.lt_iff_toInt_lt, Int64.toInt_zero]
    rw [heard, hset, Option.map_some, read_of_spells hspells, setting, if_pos hlt,
      Text.Numeral.toString_eq_write]

/-- What spells one number is no fault, unless that number is a negative drift. -/
theorem fine_iff : Fine lookup v ↔ ∀ text, lookup v.name = some text →
    ∃ value : Int64, Numeral.Spells text.toList value.toInt ∧ (v = maxDrift → 0 ≤ value.toInt) := by
  constructor
  · intro hfine text hset
    by_cases hspells : ∃ value : Int64, Numeral.Spells text.toList value.toInt
    · obtain ⟨value, hvalue⟩ := hspells
      refine ⟨value, hvalue, ?_⟩
      rintro rfl
      refine Int.not_lt.mp fun hneg => ?_
      exact hfine _ (.negative ⟨text, hset, hvalue⟩ hneg)
    · exact absurd (.misspelled hset fun value hvalue => hspells ⟨value, hvalue⟩) (hfine text)
  · intro h quoted hfaulty
    cases hfaulty with
    | misspelled hset hnot =>
      obtain ⟨value, hspells, -⟩ := h quoted hset
      exact hnot value hspells
    | negative hsets hneg =>
      obtain ⟨text, hset, hspells⟩ := hsets
      obtain ⟨value, hvalue, hnonneg⟩ := h text hset
      rw [hspells.unique hvalue] at hneg
      exact absurd (hnonneg rfl) (Int.not_le.mpr hneg)

theorem heard_of_sets (hfine : Fine lookup v) (h : Sets lookup v value) :
    heard lookup v = some (.ok (v.meaning value)) := by
  obtain ⟨text, hset, hspells⟩ := h
  obtain ⟨value', hspells', hnonneg⟩ := fine_iff.mp hfine text hset
  obtain rfl := Int64.toInt_inj.mp (hspells.unique hspells')
  rw [heard, hset, Option.map_some, read_of_spells hspells, setting_eq hnonneg]

theorem Fine.ofUnset (h : lookup v.name = none) : Fine lookup v := by
  refine fine_iff.mpr fun text hset => ?_
  rw [h] at hset
  exact nomatch hset

theorem Fine.ofSets (h : Sets lookup v value) (hnonneg : v = maxDrift → 0 ≤ value.toInt) :
    Fine lookup v := by
  obtain ⟨text, hset, hspells⟩ := h
  refine fine_iff.mpr fun text' hset' => ?_
  obtain rfl := Option.some.inj (hset.symm.trans hset')
  exact ⟨value, hspells, hnonneg⟩

theorem Fine.cases (h : Fine lookup v) :
    lookup v.name = none ∨ ∃ value, Sets lookup v value := by
  cases hset : lookup v.name with
  | none => exact .inl rfl
  | some text =>
    obtain ⟨value, hspells, -⟩ := fine_iff.mp h text hset
    exact .inr ⟨value, text, hset, hspells⟩

/-- What a fine variable says, if it says anything. -/
def said? (lookup : String → Option String) (v : Variable) : Option Setting :=
  (heard lookup v).bind Except.toOption

theorem said?_of_none (h : lookup v.name = none) : said? lookup v = none := by
  rw [said?, heard, h]
  rfl

theorem said?_of_sets (hfine : Fine lookup v) (h : Sets lookup v value) :
    said? lookup v = some (v.meaning value) := by
  rw [said?, heard_of_sets hfine h]
  rfl

theorem topic_of_said? (hfine : Fine lookup v) {s : Setting} (h : said? lookup v = some s) :
    s.topic = v.topic ∧ s.plain = s := by
  rcases hfine.cases with hnone | ⟨value, hvalue⟩
  · rw [said?_of_none hnone] at h
    exact nomatch h
  · rw [said?_of_sets hfine hvalue] at h
    obtain rfl := Option.some.inj h
    exact ⟨topic_meaning v value, plain_meaning v value⟩

/-! ## Several variables -/

theorem consult_cons_of_faulty (h : Faulty lookup v quoted) (rest : List Variable) :
    consult lookup (v :: rest) = ([v.name], .error (.invalidVariable v.name quoted)) := by
  have hheard := heard_of_faulty h
  rw [heard] at hheard
  rw [consult, hheard]

theorem consult_cons_of_fine (h : Fine lookup v) (rest : List Variable) :
    consult lookup (v :: rest) = (v.name :: (consult lookup rest).1,
      (consult lookup rest).2.map fun later => (said? lookup v).toList ++ later) := by
  rcases h.cases with hnone | ⟨value, hvalue⟩
  · rw [consult, hnone, said?_of_none hnone]
    generalize consult lookup rest = later
    obtain ⟨asked, cause | settings⟩ := later <;> rfl
  · have hheard := heard_of_sets h hvalue
    rw [heard] at hheard
    rw [consult, hheard, said?_of_sets h hvalue]
    rfl

/-- The first faulty variable ends the look-up. Induction on the variables before it, which add
their names and nothing else. -/
theorem consult_of_faulty {before : List Variable} (hbefore : ∀ u ∈ before, Fine lookup u)
    (h : Faulty lookup v quoted) (after : List Variable) :
    consult lookup (before ++ v :: after) =
      ((before ++ [v]).map name, .error (.invalidVariable v.name quoted)) := by
  induction before with
  | nil => exact consult_cons_of_faulty h after
  | cons u before ih =>
    rw [List.cons_append, consult_cons_of_fine (hbefore u List.mem_cons_self),
      ih fun u hu => hbefore u (List.mem_cons_of_mem _ hu)]
    rfl

theorem consult_of_fine {vs : List Variable} (h : ∀ v ∈ vs, Fine lookup v) :
    consult lookup vs = (vs.map name, .ok (vs.filterMap (said? lookup))) := by
  induction vs with
  | nil => rfl
  | cons v vs ih =>
    rw [consult_cons_of_fine (h v List.mem_cons_self),
      ih fun u hu => h u (List.mem_cons_of_mem _ hu), List.filterMap_cons]
    cases said? lookup v <;> rfl

theorem fine_of_consult {vs : List Variable} {settings : List Setting}
    (h : (consult lookup vs).2 = .ok settings) : ∀ v ∈ vs, Fine lookup v := by
  induction vs generalizing settings with
  | nil =>
    intro v hv
    exact nomatch hv
  | cons v vs ih =>
    have hfine : Fine lookup v := by
      intro quoted hfaulty
      rw [consult_cons_of_faulty hfaulty] at h
      exact nomatch h
    rw [consult_cons_of_fine hfine] at h
    cases hlater : (consult lookup vs).2 with
    | error cause =>
      rw [hlater] at h
      exact nomatch h
    | ok later =>
      rintro u (_ | ⟨_, hu⟩)
      · exact hfine
      · exact ih hlater u hu

/-- Two look-ups that agree on all that the first was asked for go the same way. -/
theorem consult_congr {other : String → Option String} {vs : List Variable}
    (h : ∀ name ∈ (consult lookup vs).1, other name = lookup name) :
    consult other vs = consult lookup vs := by
  induction vs with
  | nil => rfl
  | cons v vs ih =>
    have hfirst : v.name ∈ (consult lookup (v :: vs)).1 := by
      rw [consult]
      split <;> exact List.mem_cons_self
    simp only [consult, h _ hfirst] at h ⊢
    cases hheard : (lookup v.name).map v.read with
    | none =>
      simp only [hheard] at h ⊢
      rw [ih fun name hname => h name (List.mem_cons_of_mem _ hname)]
    | some said =>
      cases said with
      | error cause => rfl
      | ok setting =>
        simp only [hheard] at h ⊢
        rw [ih fun name hname => h name (List.mem_cons_of_mem _ hname)]

/-- Variables are asked for in their order, and none is passed over. -/
theorem consult_isPrefix (lookup : String → Option String) (vs : List Variable) :
    (consult lookup vs).1 <+: vs.map name := by
  induction vs with
  | nil => exact List.prefix_rfl
  | cons v vs ih =>
    rw [consult, List.map_cons]
    split
    · exact List.cons_prefix_cons.mpr ⟨rfl, List.nil_prefix⟩
    · exact List.cons_prefix_cons.mpr ⟨rfl, ih⟩
    · exact List.cons_prefix_cons.mpr ⟨rfl, ih⟩

/-! ## The blueprint -/

theorem said?_topic_inj (hfine : ∀ v, Fine lookup v) {u v : Variable} {s s' : Setting}
    (hs : said? lookup u = some s) (hs' : said? lookup v = some s') (h : s.topic = s'.topic) :
    u = v := by
  rw [(topic_of_said? (hfine u) hs).1, (topic_of_said? (hfine v) hs').1] at h
  exact topic_inj h

theorem lastWord?_said? (hfine : ∀ v, Fine lookup v) (v : Variable) :
    Setting.lastWord? v.topic (all.filterMap (said? lookup)) = said? lookup v := by
  have hnodup : ((all.filterMap (said? lookup)).map Setting.topic).Nodup :=
    Setting.nodup_topic_filterMap (by decide) fun _ _ _ _ => said?_topic_inj hfine
  refine Option.ext fun s => ?_
  rw [Setting.lastWord?_eq_some_iff hnodup, List.mem_filterMap]
  constructor
  · rintro ⟨⟨u, -, hu⟩, htopic⟩
    rw [(topic_of_said? (hfine u) hu).1] at htopic
    rwa [← topic_inj htopic]
  · intro hs
    exact ⟨⟨v, mem_all v, hs⟩, (topic_of_said? (hfine v) hs).1⟩

theorem lastWord?_clock (hfine : ∀ v, Fine lookup v) :
    Setting.lastWord? .clock (all.filterMap (said? lookup)) = none := by
  rw [Option.eq_none_iff_forall_ne_some]
  intro s hs
  have hmem := List.mem_of_getLast? hs
  obtain ⟨u, -, hu⟩ := List.mem_filterMap.mp (List.mem_of_mem_filter hmem)
  have htopic := Setting.topic_of_lastWord? hs
  rw [(topic_of_said? (hfine u) hu).1] at htopic
  exact topic_ne_clock u htopic

/-- A blueprint says what the variables of a look-up say, and nothing else. -/
structure Describes (lookup : String → Option String) (b : Blueprint) : Prop where
  set : ∀ v value, Sets lookup v value → b.word v.topic = v.meaning value
  unset : ∀ v : Variable, lookup v.name = none →
    b.word v.topic = ({} : Blueprint).word v.topic
  clock : b.clock = .system

theorem Describes.ofFine (hfine : ∀ v, Fine lookup v) :
    Describes lookup (({} : Blueprint).configure (all.filterMap (said? lookup))) where
  set := by
    intro v value hsets
    rw [Blueprint.word_configure, lastWord?_said? hfine, said?_of_sets (hfine v) hsets,
      Option.map_some, plain_meaning, Option.getD_some]
  unset := by
    intro v hnone
    rw [Blueprint.word_configure, lastWord?_said? hfine, said?_of_none hnone]
    rfl
  clock := by
    have hword := Blueprint.word_configure {} (all.filterMap (said? lookup)) .clock
    rw [lastWord?_clock hfine] at hword
    exact Setting.clock.inj hword

/-- Variables that are all set describe what the same numbers say as settings. -/
theorem Describes.eq_configure {b : Blueprint} {epochMs dataCenter worker maxDriftMs : Int64}
    (h : Describes lookup b) (hepoch : Sets lookup .epoch epochMs)
    (hdataCenter : Sets lookup .dataCenter dataCenter) (hworker : Sets lookup .worker worker)
    (hmaxDrift : Sets lookup .maxDrift maxDriftMs) :
    b = ({} : Blueprint).configure [.epoch epochMs, .dataCenter dataCenter, .worker worker,
      .policy (.wait maxDriftMs)] := by
  refine Blueprint.eq_of_word fun t => ?_
  cases t with
  | epoch => exact h.set .epoch epochMs hepoch
  | dataCenter => exact h.set .dataCenter dataCenter hdataCenter
  | worker => exact h.set .worker worker hworker
  | policy => exact h.set .maxDrift maxDriftMs hmaxDrift
  | clock => exact congrArg Setting.clock h.clock

end Variable

/-! ## Environments -/

namespace Environment

/-- The text of a variable of a process, if its bytes are those of a text. The first entry with its
name is the one that counts. -/
def Shows (e : Environment) (name : String) (text? : Option String) : Prop :=
  ∀ text, text? = some text ↔ ∃ before after, e = before ++ (name, text.toUTF8) :: after ∧
    ∀ entry ∈ before, entry.1 ≠ name

theorem fromUTF8?_eq_some_iff {bytes : ByteArray} {text : String} :
    String.fromUTF8? bytes = some text ↔ bytes = text.toUTF8 := by
  unfold String.fromUTF8?
  split
  · rw [Option.some.injEq]
    constructor
    · rintro rfl
      rfl
    · rintro rfl
      rfl
  · rename_i hinvalid
    constructor
    · intro h
      exact nomatch h
    · rintro rfl
      exact absurd text.isValidUTF8 hinvalid

theorem shows_text? (e : Environment) (name : String) : e.Shows name (e.text? name) := by
  intro text
  simp only [text?, Option.bind_eq_some_iff, fromUTF8?_eq_some_iff]
  constructor
  · rintro ⟨⟨found, bytes⟩, hfind, rfl⟩
    obtain ⟨hname, before, after, rfl, hbefore⟩ := List.find?_eq_some_iff_append.mp hfind
    obtain rfl := beq_iff_eq.mp hname
    exact ⟨before, after, rfl, fun entry hentry => by simpa using hbefore entry hentry⟩
  · rintro ⟨before, after, rfl, hbefore⟩
    refine ⟨(name, text.toUTF8), List.find?_eq_some_iff_append.mpr ⟨beq_self_eq_true name, ?_⟩, rfl⟩
    exact ⟨before, after, rfl, fun entry hentry => by simpa using hbefore entry hentry⟩

end Environment

namespace Blueprint

open Variable

theorem ofVariables_of_fine {lookup : String → Option String} (h : ∀ v, Fine lookup v) :
    ofVariables lookup = (Variable.all.map Variable.name,
      .ok (({} : Blueprint).configure (Variable.all.filterMap (said? lookup)))) := by
  simp only [ofVariables, consult_of_fine fun v _ => h v]
  rfl

theorem ofVariables_ok_iff {lookup : String → Option String} :
    (∃ b, (ofVariables lookup).2 = .ok b) ↔ ∀ v, Fine lookup v := by
  constructor
  · rintro ⟨b, hb⟩ v
    cases hsettings : (consult lookup Variable.all).2 with
    | error cause =>
      simp only [ofVariables, hsettings] at hb
      exact nomatch hb
    | ok settings => exact fine_of_consult hsettings v (mem_all v)
  · intro h
    rw [ofVariables_of_fine h]
    exact ⟨_, rfl⟩

/-- A look-up that shows what an environment shows describes the same blueprint. -/
theorem environment_blueprint {e : Environment} {lookup : String → Option String}
    (h : ∀ v : Variable, e.Shows v.name (lookup v.name)) :
    e.blueprint = (ofVariables lookup).2 := by
  have hlookup : ∀ name ∈ Variable.all.map Variable.name, e.text? name = lookup name := by
    intro name hname
    obtain ⟨v, -, rfl⟩ := List.mem_map.mp hname
    exact Option.ext fun text => (e.shows_text? v.name text).trans (h v text).symm
  have hsame : consult e.text? Variable.all = consult lookup Variable.all :=
    consult_congr fun name hname => hlookup name ((consult_isPrefix lookup _).subset hname)
  simp only [Environment.blueprint, ofVariables, hsame]

/-- **The first faulty variable ends a look-up, and nothing after it is asked for.** Without one, the
blueprint says what the variables say, in range for a generator or not. An environment is such a
look-up; what it holds under a name is none if its bytes are no text. -/
theorem lookup_ends_at_first_fault :
    (∀ lookup : String → Option String,
      (ofVariables lookup).1 <+: ["IDKIT_EPOCH_MS", "IDKIT_DATA_CENTER_ID", "IDKIT_WORKER_ID",
        "IDKIT_MAX_CLOCK_DRIFT_MS"] ∧
      (∀ before v after quoted, Variable.all = before ++ v :: after →
        (∀ u ∈ before, Fine lookup u) → Faulty lookup v quoted →
        ofVariables lookup =
          ((before ++ [v]).map Variable.name, .error (.invalidVariable v.name quoted))) ∧
      ((∀ v, Fine lookup v) → ∃ b, Describes lookup b ∧
        ofVariables lookup = (Variable.all.map Variable.name, .ok b)) ∧
      ∀ other : String → Option String,
        (∀ name ∈ (ofVariables lookup).1, other name = lookup name) →
        ofVariables other = ofVariables lookup) ∧
    ∀ (e : Environment) (lookup : String → Option String),
      (∀ v : Variable, e.Shows v.name (lookup v.name)) →
      e.blueprint = (ofVariables lookup).2 := by
  refine ⟨?_, fun _ _ => environment_blueprint⟩
  intro lookup
  refine ⟨consult_isPrefix lookup Variable.all, ?_, ?_, ?_⟩
  · intro before v after quoted hall hbefore hfaulty
    simp only [ofVariables, hall, consult_of_faulty hbefore hfaulty after]
    rfl
  · intro hfine
    exact ⟨_, Describes.ofFine hfine, ofVariables_of_fine hfine⟩
  · intro other hother
    have hsame : consult other Variable.all = consult lookup Variable.all := consult_congr hother
    simp only [ofVariables, hsame]

/-- A worker that spells nothing ends the look-up before the drift, which is negative and might as
well not be set; a worker that no generator has does not end it; and an environment has one variable
that is no text and one that is set twice. -/
theorem lookup_ends_at_a_worker :
    let three : Text.Numeral.Spelling (3 : Int64).toInt :=
      { before := [' '], sign := [], zeros := 2, after := [' '], before_blank := by decide
        signed := .plain (by decide), after_blank := by decide }
    let forty : Text.Numeral.Spelling (40 : Int64).toInt :=
      { before := [], sign := ['+'], zeros := 0, after := [], before_blank := by decide
        signed := .plus (by decide), after_blank := by decide }
    let faulty : String → Option String := fun name =>
      if name = Variable.dataCenter.name then some (String.ofList three.text)
      else if name = Variable.worker.name then some "seven"
      else if name = Variable.maxDrift.name then some "-3"
      else none
    let driftless : String → Option String := fun name =>
      if name = Variable.maxDrift.name then none else faulty name
    let fine : String → Option String := fun name =>
      if name = Variable.worker.name then some (String.ofList forty.text) else none
    let e : Environment := [("IDKIT_EPOCH_MS", ⟨#[0xff]⟩), ("IDKIT_WORKER_ID", "4".toUTF8),
      ("IDKIT_WORKER_ID", "5".toUTF8)]
    let shown : String → Option String := fun name =>
      if name = Variable.worker.name then some "4" else none
    Variable.all = [.epoch, .dataCenter] ++ .worker :: [.maxDrift] ∧
      (∀ u ∈ [Variable.epoch, .dataCenter], Fine faulty u) ∧ Faulty faulty .worker "seven" ∧
      ofVariables faulty = (["IDKIT_EPOCH_MS", "IDKIT_DATA_CENTER_ID", "IDKIT_WORKER_ID"],
        .error (.invalidVariable "IDKIT_WORKER_ID" "seven")) ∧
      (∀ name ∈ (ofVariables faulty).1, driftless name = faulty name) ∧
      ofVariables driftless = ofVariables faulty ∧
      (∀ v, Fine fine v) ∧ (∃ b, Describes fine b ∧
        ofVariables fine = (Variable.all.map Variable.name, .ok b)) ∧
      (∀ v : Variable, e.Shows v.name (shown v.name)) ∧ e.blueprint = (ofVariables shown).2 := by
  intro three forty faulty driftless fine e shown
  have hthree : Sets faulty .dataCenter 3 := ⟨_, rfl, three, String.toList_ofList⟩
  have hforty : Sets fine .worker 40 := ⟨_, rfl, forty, String.toList_ofList⟩
  have hbefore : ∀ u ∈ [Variable.epoch, .dataCenter], Fine faulty u := by
    rintro u (_ | ⟨_, _ | ⟨_, hu⟩⟩)
    · exact .ofUnset rfl
    · exact .ofSets hthree nofun
    · exact nomatch hu
  have hworker : Faulty faulty .worker "seven" := .misspelled rfl fun _ =>
    Text.Numeral.Misspelled.not_spells
      (.stranger (show 's' ∈ "seven".toList by decide) (by decide) (by decide) (by decide)
        (by decide)) _
  have hfine : ∀ v, Fine fine v := by
    intro v
    cases v with
    | worker => exact .ofSets hforty nofun
    | epoch => exact .ofUnset rfl
    | dataCenter => exact .ofUnset rfl
    | maxDrift => exact .ofUnset rfl
  have hshown : ∀ v : Variable, e.Shows v.name (shown v.name) := by
    intro v
    have htext : shown v.name = e.text? v.name := by cases v <;> decide
    rw [htext]
    exact e.shows_text? v.name
  have hends : ofVariables faulty = (["IDKIT_EPOCH_MS", "IDKIT_DATA_CENTER_ID", "IDKIT_WORKER_ID"],
      .error (.invalidVariable "IDKIT_WORKER_ID" "seven")) :=
    (lookup_ends_at_first_fault.1 faulty).2.1 _ .worker [.maxDrift] "seven" rfl hbefore hworker
  have hasked : ∀ name ∈ (ofVariables faulty).1, driftless name = faulty name := by
    intro name hname
    rw [hends] at hname
    refine if_neg ?_
    rintro rfl
    exact absurd hname (by decide)
  exact ⟨rfl, hbefore, hworker, hends, hasked,
    (lookup_ends_at_first_fault.1 faulty).2.2.2 driftless hasked, hfine,
    (lookup_ends_at_first_fault.1 fine).2.2.1 hfine, hshown,
    lookup_ends_at_first_fault.2 e shown hshown⟩

/-! ## Variables and settings -/

/-- **To spell the settings in variables is to give them**, whatever the spelling: the generator or
the refusal is the same, whichever clock is read and whatever it answers. And nothing but spellings
will do. A look-up describes a blueprint exactly if each variable that is set spells a word, the
largest drift one that is not negative; a text with something missing or out of place describes none,
and neither does a number that is too large for a word. -/
theorem spelled_settings_agree :
    (∀ (lookup : String → Option String) (epochMs dataCenter worker maxDriftMs : Int64),
      0 ≤ maxDriftMs.toInt → Sets lookup .epoch epochMs → Sets lookup .dataCenter dataCenter →
      Sets lookup .worker worker → Sets lookup .maxDrift maxDriftMs →
      ∃ b, (ofVariables lookup).2 = .ok b ∧ ∀ (clock : ClockName) (supply : List Reading),
        (b.set (.clock clock)).build supply =
          (({} : Blueprint).configure [.epoch epochMs, .dataCenter dataCenter, .worker worker,
            .policy (.wait maxDriftMs), .clock clock]).build supply) ∧
    (∀ lookup : String → Option String, (∃ b, (ofVariables lookup).2 = .ok b) ↔
      ∀ (v : Variable) (text : String), lookup v.name = some text →
        ∃ value : Int64, Numeral.Spells text.toList value.toInt ∧
          (v = .maxDrift → 0 ≤ value.toInt)) ∧
    ∀ (lookup : String → Option String) (v : Variable) (text : String),
      lookup v.name = some text →
      Text.Numeral.Misspelled text.toList ∨
        (∃ n, Numeral.Spells text.toList n ∧ ¬ Checked.Fits n) →
      ∀ b, (ofVariables lookup).2 ≠ .ok b := by
  refine ⟨?_, ?_, ?_⟩
  · intro lookup epochMs dataCenter worker maxDriftMs hnonneg hepoch hdataCenter hworker hmaxDrift
    have hfine : ∀ v, Fine lookup v := by
      intro v
      cases v with
      | epoch => exact .ofSets hepoch nofun
      | dataCenter => exact .ofSets hdataCenter nofun
      | worker => exact .ofSets hworker nofun
      | maxDrift => exact .ofSets hmaxDrift fun _ => hnonneg
    refine ⟨_, congrArg Prod.snd (ofVariables_of_fine hfine), fun clock supply => ?_⟩
    rw [(Describes.ofFine hfine).eq_configure hepoch hdataCenter hworker hmaxDrift]
    rfl
  · intro lookup
    rw [ofVariables_ok_iff]
    exact forall_congr' fun v => fine_iff
  · intro lookup v text hset hbad b hb
    obtain ⟨value, hspells, -⟩ := fine_iff.mp (ofVariables_ok_iff.mp ⟨b, hb⟩ v) text hset
    rcases hbad with hmisspelled | ⟨n, hn, hfits⟩
    · exact hmisspelled.not_spells _ hspells
    · rw [hn.unique hspells] at hfits
      exact hfits (Checked.fits_toInt value)

/-- The smallest word and the largest, with zeros in front and blanks on both sides that are not of
ASCII, a worker that is zero with a sign, and one that is one too large for a word. -/
theorem spelled_settings_agree_at_the_ends :
    let epoch : Text.Numeral.Spelling Int64.minValue.toInt :=
      { before := ['\t'], sign := ['-'], zeros := 3, after := [], before_blank := by decide
        signed := .minus (by decide), after_blank := by decide }
    let dataCenter : Text.Numeral.Spelling (31 : Int64).toInt :=
      { before := ['\u2003', '\u0085'], sign := ['+'], zeros := 1, after := ['\u3000']
        before_blank := by decide, signed := .plus (by decide), after_blank := by decide }
    let worker : Text.Numeral.Spelling (0 : Int64).toInt :=
      { before := [], sign := ['-'], zeros := 0, after := ['\u00a0'], before_blank := by decide
        signed := .minus (by decide), after_blank := by decide }
    let maxDrift : Text.Numeral.Spelling Int64.maxValue.toInt :=
      { before := [], sign := [], zeros := 20, after := [], before_blank := by decide
        signed := .plain (by decide), after_blank := by decide }
    let tooLarge : Text.Numeral.Spelling (Int64.maxValue.toInt + 1) :=
      { before := [], sign := ['+'], zeros := 0, after := [], before_blank := by decide
        signed := .plus (by decide), after_blank := by decide }
    let lookup : String → Option String := fun name =>
      if name = Variable.epoch.name then some (String.ofList epoch.text)
      else if name = Variable.dataCenter.name then some (String.ofList dataCenter.text)
      else if name = Variable.worker.name then some (String.ofList worker.text)
      else if name = Variable.maxDrift.name then some (String.ofList maxDrift.text)
      else none
    Sets lookup .epoch Int64.minValue ∧ Sets lookup .dataCenter 31 ∧ Sets lookup .worker 0 ∧
      Sets lookup .maxDrift Int64.maxValue ∧
      (∃ b, (ofVariables lookup).2 = .ok b ∧ ∀ (clock : ClockName) (supply : List Reading),
        (b.set (.clock clock)).build supply =
          (({} : Blueprint).configure [.epoch Int64.minValue, .dataCenter 31, .worker 0,
            .policy (.wait Int64.maxValue), .clock clock]).build supply) ∧
      ¬ Checked.Fits (Int64.maxValue.toInt + 1) ∧
      ∀ b, (ofVariables fun _ => some (String.ofList tooLarge.text)).2 ≠ .ok b := by
  intro epoch dataCenter worker maxDrift tooLarge lookup
  have hepoch : Sets lookup .epoch Int64.minValue := ⟨_, rfl, epoch, String.toList_ofList⟩
  have hdataCenter : Sets lookup .dataCenter 31 := ⟨_, rfl, dataCenter, String.toList_ofList⟩
  have hworker : Sets lookup .worker 0 := ⟨_, rfl, worker, String.toList_ofList⟩
  have hmaxDrift : Sets lookup .maxDrift Int64.maxValue := ⟨_, rfl, maxDrift, String.toList_ofList⟩
  have hfits : ¬ Checked.Fits (Int64.maxValue.toInt + 1) := by decide
  exact ⟨hepoch, hdataCenter, hworker, hmaxDrift,
    spelled_settings_agree.1 lookup Int64.minValue 31 0 Int64.maxValue (by decide) hepoch
      hdataCenter hworker hmaxDrift, hfits,
    spelled_settings_agree.2.2 (fun _ => some (String.ofList tooLarge.text)) .worker _ rfl
      (.inr ⟨_, ⟨tooLarge, String.toList_ofList⟩, hfits⟩)⟩

end Blueprint
end IdMint

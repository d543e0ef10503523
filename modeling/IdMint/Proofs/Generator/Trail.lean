import IdMint.Proofs.Generator.Parts

/-!
# Ids one after the other

What a generator hands out over any number of calls is a *trail*: ids that each came right after the
one before, in the sense of `Issues`, from the progress that the run began with to the progress that
it ended with. Calls that issue nothing leave no gap in it, because they leave the progress as it was.

Three facts about a trail say how its ids are numbered. The milliseconds of its ids never go back
(`Trail.sorted`), so the ids of one millisecond stand together (`Trail.exists_split`). And they are
numbered without a gap (`Trail.exists_sequences`): from zero, or, in the millisecond where the trail
begins, from the number after the one that was issued last.
-/

namespace IdMint

open Layout (unpack)

namespace Generator

variable {s : Settings} {p q r : Progress} {ids ids' : List UInt64} {ms : Int}

/-- These ids come one after the other, from `p` to the last of them at `q`. -/
def Trail (s : Settings) : Progress → List UInt64 → Progress → Prop
  | p, [], q => q = p
  | p, id :: ids, q => ∃ r, Issues s p id r ∧ Trail s r ids q

theorem Trail.append (h : Trail s p ids q) (h' : Trail s q ids' r) : Trail s p (ids ++ ids') r := by
  induction ids generalizing p with
  | nil =>
    obtain rfl : q = p := h
    exact h'
  | cons id ids ih =>
    obtain ⟨p', hissues, hrest⟩ := h
    exact ⟨p', hissues, ih hrest⟩

/-- The id of a call as a trail: of one id, or of none. -/
theorem Trail.ofCall {g : Generator} (hg : g.Sound) (supply : List Reading) :
    Trail g.settings g.progress (g.call supply).1.outcome.toOption.toList
      (g.call supply).2.progress := by
  rcases call_cases hg supply with ⟨id, q, hok, hissues, hafter⟩ | ⟨f, herror, -, hsame⟩
  · rw [hok, hafter]
    exact ⟨q, hissues, rfl⟩
  · rw [herror]
    exact hsame

/-- The last id of a trail was issued at its end. -/
theorem Trail.of_concat {id : UInt64} (h : Trail s p (ids ++ [id]) q) :
    ∃ r, Trail s p ids r ∧ Issues s r id q := by
  induction ids generalizing p with
  | nil =>
    obtain ⟨r, hissues, hend⟩ := h
    obtain rfl : q = r := hend
    exact ⟨p, rfl, hissues⟩
  | cons first ids ih =>
    obtain ⟨r, hissues, hrest⟩ := h
    obtain ⟨r', htrail, hlast⟩ := ih hrest
    exact ⟨r', ⟨r, hissues, htrail⟩, hlast⟩

theorem Trail.issuedMs_getLast? {id : UInt64} (hs : s.Valid) (h : Trail s p ids q)
    (hid : ids.getLast? = some id) : (unpack id).issuedMs s.epochMs = .ok q.lastMs := by
  obtain ⟨earlier, rfl⟩ := List.getLast?_eq_some_iff.mp hid
  obtain ⟨r, -, hissues⟩ := h.of_concat
  exact hissues.issued.issuedMs hs hissues.toNat_id

/-! ## Milliseconds -/

theorem Issues.lastMs_le {id : UInt64} (h : Issues s p id q) : p.lastMs.toInt ≤ q.lastMs.toInt := by
  rcases h.next with ⟨hlt, -⟩ | ⟨heq, -⟩
  · omega
  · exact Int.le_of_eq (by rw [heq])

theorem Trail.lastMs_le (h : Trail s p ids q) : p.lastMs.toInt ≤ q.lastMs.toInt := by
  induction ids generalizing p with
  | nil =>
    obtain rfl : q = p := h
    exact Int.le_refl _
  | cons id ids ih =>
    obtain ⟨r, hissues, hrest⟩ := h
    exact Int.le_trans hissues.lastMs_le (ih hrest)

theorem Issues.time {id : UInt64} (h : Issues s p id q) (hs : s.Valid) :
    ((unpack id).time.toNat : Int) = q.lastMs.toInt - s.epochMs.toInt :=
  (h.issued.unpack hs h.toNat_id).2.1

theorem Trail.lastMs_le_of_mem (hs : s.Valid) (h : Trail s p ids q) :
    ∀ id ∈ ids, p.lastMs.toInt - s.epochMs.toInt ≤ (unpack id).time.toNat := by
  induction ids generalizing p with
  | nil => simp
  | cons id ids ih =>
    obtain ⟨p', hissues, hrest⟩ := h
    intro id' hmem
    have hle := hissues.lastMs_le
    rcases List.mem_cons.mp hmem with rfl | hmem
    · rw [hissues.time hs]
      omega
    · have hlater := ih hrest id' hmem
      omega

theorem Trail.sorted (hs : s.Valid) (h : Trail s p ids q) :
    (ids.map unpack).Pairwise fun a b => a.time.toNat ≤ b.time.toNat := by
  induction ids generalizing p with
  | nil => exact .nil
  | cons id ids ih =>
    obtain ⟨p', hissues, hrest⟩ := h
    rw [List.map_cons, List.pairwise_cons]
    refine ⟨?_, ih hrest⟩
    intro parts hparts
    obtain ⟨id', hmem, rfl⟩ := List.mem_map.mp hparts
    have htime := hissues.time hs
    have hlater := hrest.lastMs_le_of_mem hs id' hmem
    omega

/-! ## Numbers within a millisecond -/

/-- The parts of those ids that are for a millisecond. -/
def partsAt (s : Settings) (ms : Int) (ids : List UInt64) : List Parts :=
  (ids.map unpack).filter fun parts => (parts.time.toNat : Int) == ms - s.epochMs.toInt

theorem partsAt_cons (s : Settings) (ms : Int) (id : UInt64) (ids : List UInt64) :
    partsAt s ms (id :: ids) =
      if ((unpack id).time.toNat : Int) = ms - s.epochMs.toInt then
        unpack id :: partsAt s ms ids
      else partsAt s ms ids := by
  simp [partsAt, List.filter_cons]

/-- The number that the next id gets if it is for this millisecond. -/
def startAt (p : Progress) (ms : Int) : Nat :=
  if p.lastMs.toInt = ms then p.sequence.toNat + 1 else 0

theorem Trail.partsAt_eq_nil (hs : s.Valid) (h : Trail s p ids q) (hms : ms < p.lastMs.toInt) :
    partsAt s ms ids = [] := by
  rw [partsAt, List.filter_eq_nil_iff]
  intro parts hparts
  obtain ⟨id, hmem, rfl⟩ := List.mem_map.mp hparts
  have hle := h.lastMs_le_of_mem hs id hmem
  simp only [beq_iff_eq]
  omega

theorem Issues.sequence_eq_startAt {id : UInt64} (h : Issues s p id q)
    (hms : q.lastMs.toInt = ms) : q.sequence.toNat = startAt p ms := by
  unfold startAt
  rcases h.next with ⟨hlt, hzero⟩ | ⟨heq, hsucc⟩
  · rw [if_neg (by omega), hzero, UInt16.toNat_zero]
  · rw [if_pos (by rw [← heq, hms]), hsucc]

/-- **The ids of a millisecond are numbered without a gap**, and there is an end to their numbers. -/
theorem Trail.exists_sequences (hs : s.Valid) (h : Trail s p ids q)
    (hp : p.sequence.toNat < 2 ^ 12) (hms : p.lastMs.toInt ≤ ms) :
    ∃ k, (partsAt s ms ids).map (·.sequence.toNat) = List.range' (startAt p ms) k ∧
      startAt p ms + k ≤ 4096 := by
  induction ids generalizing p with
  | nil =>
    refine ⟨0, rfl, ?_⟩
    unfold startAt
    split <;> omega
  | cons id ids ih =>
    obtain ⟨p', hissues, hrest⟩ := h
    have htime := hissues.time hs
    have hle := hissues.lastMs_le
    have hp' := hissues.issued.sequence_lt
    -- The first id is for this millisecond, or comes before it, or shows that it is over.
    rcases Int.lt_trichotomy p'.lastMs.toInt ms with hbefore | hat | hafter
    · obtain ⟨k, hk, hbound⟩ := ih hrest hp' (by omega)
      have hstart : startAt p' ms = startAt p ms := by
        rw [startAt, startAt, if_neg (by omega), if_neg (by omega)]
      refine ⟨k, ?_, hstart ▸ hbound⟩
      rw [partsAt_cons, if_neg (by omega), hk, hstart]
    · obtain ⟨k, hk, hbound⟩ := ih hrest hp' (by omega)
      have hseq := hissues.sequence_eq_startAt hat
      have hparts : (unpack id).sequence.toNat = p'.sequence.toNat := by
        rw [(hissues.issued.unpack hs hissues.toNat_id).2.2.2.2, UInt16.toNat_toUInt64]
      have hstart : startAt p' ms = startAt p ms + 1 := by
        rw [startAt, if_pos hat, hseq]
      refine ⟨k + 1, ?_, by omega⟩
      rw [partsAt_cons, if_pos (by omega), List.map_cons, hparts, hseq, hk, hstart,
        List.range'_succ]
    · refine ⟨0, ?_, ?_⟩
      · rw [partsAt_cons, if_neg (by omega), hrest.partsAt_eq_nil hs hafter]
        rfl
      · unfold startAt
        split <;> omega

/-- The ids of a millisecond stand together. -/
theorem Trail.exists_split (hs : s.Valid) (h : Trail s p ids q) (ms : Int) :
    ∃ before after, ids.map unpack = before ++ partsAt s ms ids ++ after ∧
      (∀ parts ∈ before, (parts.time.toNat : Int) < ms - s.epochMs.toInt) ∧
      ∀ parts ∈ after, ms - s.epochMs.toInt < parts.time.toNat := by
  induction ids generalizing p with
  | nil => exact ⟨[], [], rfl, by simp, by simp⟩
  | cons id ids ih =>
    obtain ⟨p', hissues, hrest⟩ := h
    have htime := hissues.time hs
    have hlater := hrest.lastMs_le_of_mem hs
    obtain ⟨before, after, heq, hbefore, hafter⟩ := ih hrest
    rcases Int.lt_trichotomy p'.lastMs.toInt ms with hlt | hat | hgt
    · refine ⟨unpack id :: before, after, ?_, ?_, hafter⟩
      · rw [partsAt_cons, if_neg (by omega), List.map_cons, heq]
        rfl
      · intro parts hmem
        rcases List.mem_cons.mp hmem with rfl | hmem
        · omega
        · exact hbefore parts hmem
    · -- Nothing that comes later can be for an earlier millisecond.
      have hnone : before = [] := by
        rw [List.eq_nil_iff_forall_not_mem]
        intro parts hmem
        have hparts : parts ∈ ids.map unpack := by
          rw [heq]
          simp [hmem]
        obtain ⟨id', hid', rfl⟩ := List.mem_map.mp hparts
        have hle := hlater id' hid'
        have hlt := hbefore _ hmem
        omega
      refine ⟨[], after, ?_, by simp, hafter⟩
      rw [partsAt_cons, if_pos (by omega), List.map_cons, heq, hnone]
      rfl
    · refine ⟨[], (id :: ids).map unpack, ?_, by simp, ?_⟩
      · rw [partsAt_cons, if_neg (by omega), hrest.partsAt_eq_nil hs hgt]
        rfl
      · intro parts hmem
        obtain ⟨id', hid', rfl⟩ := List.mem_map.mp hmem
        rcases List.mem_cons.mp hid' with rfl | hid'
        · omega
        · have hle := hlater id' hid'
          omega

theorem partsAt_eq_nil_of_lt_epoch (ids : List UInt64) (h : ms < s.epochMs.toInt) :
    partsAt s ms ids = [] := by
  rw [partsAt, List.filter_eq_nil_iff]
  intro parts _
  simp only [beq_iff_eq]
  omega

/-- A trail from the beginning numbers the ids of every millisecond from zero. -/
theorem Trail.exists_range (hs : s.Valid) (h : Trail s {} ids q) (ms : Int) :
    ∃ k ≤ 4096, (partsAt s ms ids).map (·.sequence.toNat) = List.range k := by
  by_cases hearly : ms < s.epochMs.toInt
  · exact ⟨0, by decide, by rw [partsAt_eq_nil_of_lt_epoch ids hearly]; rfl⟩
  · have hnonneg := hs.epoch_nonneg
    have hnever : ({} : Progress).lastMs.toInt = -1 := by decide
    obtain ⟨k, hk, hbound⟩ : ∃ k, (partsAt s ms ids).map (·.sequence.toNat) =
        List.range' (startAt {} ms) k ∧ startAt {} ms + k ≤ 4096 :=
      h.exists_sequences hs (by decide) (by omega)
    have hstart : startAt {} ms = 0 := by
      rw [startAt, if_neg (by omega)]
    rw [hstart] at hk hbound
    exact ⟨k, by omega, by rw [hk, List.range_eq_range']⟩

/-- Once a millisecond has all its ids, the next id is for a later one. -/
theorem Trail.later_of_full {id : UInt64} (hs : s.Valid) (h : Trail s {} ids q)
    (hid : Issues s q id r) (hfull : (partsAt s ms ids).length = 4096) :
    ms - s.epochMs.toInt < (unpack id).time.toNat := by
  have htrail : Trail s {} (ids ++ [id]) r := h.append ⟨r, hid, rfl⟩
  have hsorted := htrail.sorted hs
  obtain ⟨k, hk, hrange⟩ := htrail.exists_range hs ms
  have hlength : (partsAt s ms (ids ++ [id])).length = k := by
    rw [← List.length_map, hrange, List.length_range]
  -- It is not for this millisecond, which would then have one id too many.
  have hne : ((unpack id).time.toNat : Int) ≠ ms - s.epochMs.toInt := by
    intro heq
    have hmore : partsAt s ms (ids ++ [id]) = partsAt s ms ids ++ [unpack id] := by
      simp [partsAt, heq]
    rw [hmore, List.length_append, hfull] at hlength
    simp only [List.length_singleton] at hlength
    omega
  obtain ⟨parts, hparts⟩ := List.exists_mem_of_length_pos (by rw [hfull]; decide)
  obtain ⟨hmem, htime⟩ := List.mem_filter.mp hparts
  rw [beq_iff_eq] at htime
  rw [List.map_append, List.pairwise_append] at hsorted
  have hle := hsorted.2.2 parts hmem (unpack id) (by simp)
  omega

end Generator
end IdMint

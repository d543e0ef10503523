import IdMint.Proofs.Generator.Parts

/-!
# Sorting ids

Ids can be sorted without being taken apart. The order of the words is the order of their fields, and
the time field comes first, so generators that count from one epoch may put their ids together: sorted
as numbers, the ids are sorted by the millisecond that they were issued in, whichever machines they
are from. Within a millisecond they are sorted by the machine.
-/

namespace IdMint

namespace Generator

/-- A call issued an id, and the last reading that it took for it was this. -/
structure IssuesOn (g : Generator) (supply : List Reading) (id : UInt64) (ms : Int64) : Prop where
  outcome : (g.call supply).1.outcome = .ok id
  lastReading : ((g.call supply).1.taken supply).getLast? = some (.time ms)

theorem IssuesOn.lastMs {g : Generator} {supply : List Reading} {id : UInt64} {ms : Int64}
    (h : g.IssuesOn supply id ms) : (g.call supply).2.progress.lastMs = ms := by
  have hlast := getLast?_taken g supply h.outcome
  rw [h.lastReading, Option.some.injEq, Reading.time.injEq] at hlast
  exact hlast.symm

/-- The id as fields, with the time since the epoch in front. -/
theorem IssuesOn.exists_fields {g : Generator} (hg : g.Reached) {supply : List Reading}
    {id : UInt64} {ms : Int64} (h : g.IssuesOn supply id ms) :
    ∃ f : Layout.Fields, f.id = id ∧
      (f.elapsed.toNat : Int) = ms.toInt - g.settings.epochMs.toInt := by
  have hissues := Issues.ofCall hg.sound h.outcome
  obtain ⟨f, hid, helapsed, -⟩ := hissues.issued.exists_fields hg.sound.settings hissues.toNat_id
  rw [h.lastMs] at helapsed
  exact ⟨f, hid, helapsed⟩

theorem lt_of_issuesOn {g h : Generator} (hg : g.Reached) (hh : h.Reached)
    (epoch : g.settings.epochMs = h.settings.epochMs) {supply supply' : List Reading}
    {i j : UInt64} {ms ms' : Int64} (hi : g.IssuesOn supply i ms) (hj : h.IssuesOn supply' j ms')
    (earlier : ms < ms') : i < j := by
  obtain ⟨f, rfl, hf⟩ := hi.exists_fields hg
  obtain ⟨f', rfl, hf'⟩ := hj.exists_fields hh
  rw [Int64.lt_iff_toInt_lt] at earlier
  rw [epoch] at hf
  apply (f.id_lt_id_iff f').mpr
  apply List.cons_lt_cons_iff.mpr
  left
  omega

end Generator

namespace Layout

open Generator (IssuesOn)

/-- **Packing is a bijection that keeps the order**: from fields that have room in an id, read one
after the other, onto the words without a top bit.

* An id shows the fields that it was packed from, and no top bit.
* The parts of any word make it up, and it is the id of its fields if its top bit is not set.
* Ids are ordered as their fields are, the most significant first.
* So ids of generators with one epoch are ordered by the millisecond they were issued in. -/
theorem ids_sort_by_fields :
    (∀ f : Fields, unpack f.id = f.parts) ∧
    (∀ id : UInt64, (unpack id).id = id ∧ (unpack id).Tiles ∧
      ((unpack id).msb = 0 → (Fields.ofWord id).id = id ∧ (Fields.ofWord id).parts = unpack id)) ∧
    (∀ f f' : Fields, f.id < f'.id ↔ f.numbers < f'.numbers) ∧
    ∀ g h : Generator, g.Reached → h.Reached → g.settings.epochMs = h.settings.epochMs →
      ∀ (supply supply' : List Reading) (i j : UInt64) (ms ms' : Int64),
        g.IssuesOn supply i ms → h.IssuesOn supply' j ms' → ms < ms' → i < j := by
  refine ⟨Fields.unpack_id, ?_, Fields.id_lt_id_iff, ?_⟩
  · intro id
    refine ⟨rfl, tiles_unpack id, ?_⟩
    intro hmsb
    have hid : (Fields.ofWord id).id = id := (Fields.id_ofWord_iff id).mpr hmsb
    refine ⟨hid, ?_⟩
    rw [← Fields.unpack_id, hid]
  · intro g h hg hh epoch supply supply' i j ms ms' hi hj earlier
    exact Generator.lt_of_issuesOn hg hh epoch hi hj earlier

/-- The last worker of the last data center issues an id one millisecond before the first worker of
the first one does. Its id is the smaller one all the same. -/
theorem ids_sort_by_fields_across_machines :
    let g : Generator := { settings := { epochMs := 1000, dataCenter := 31, worker := 31 } }
    let h : Generator := { settings := { epochMs := 1000 } }
    g.IssuesOn [.time 2999] 8388603904 2999 ∧ h.IssuesOn [.time 3000] 8388608000 3000 ∧
      (8388603904 : UInt64) < 8388608000 := by
  have built : (({ epochMs := 1000, dataCenter := 31, worker := 31 } : Blueprint).build
      [.time 2000]).outcome =
      .ok { settings := { epochMs := 1000, dataCenter := 31, worker := 31 } } := by rfl
  have built' : (({ epochMs := 1000 } : Blueprint).build [.time 2000]).outcome =
      .ok { settings := { epochMs := 1000 } } := by rfl
  have first : IssuesOn { settings := { epochMs := 1000, dataCenter := 31, worker := 31 } }
      [.time 2999] 8388603904 2999 := ⟨by rfl, by rfl⟩
  have second : IssuesOn { settings := { epochMs := 1000 } } [.time 3000] 8388608000 3000 :=
    ⟨by rfl, by rfl⟩
  exact ⟨first, second, ids_sort_by_fields.2.2.2 _ _ (.built built) (.built built') rfl _ _ _ _ _ _
    first second (by decide)⟩

end Layout
end IdMint

import IdMint.Proofs.Fleet.Issues
import IdMint.Proofs.Generator.Trail

/-!
# How the ids of a history are numbered

Seen through one ref, a history is a trail: the ids that came through it, one after the other, from
where the generator stood before the history to where it stands after it (`trail_of_run`). Calls on
other generators are not on the trail, and neither are calls that failed.

So the numbers within a millisecond have no gap and no end but the last one that fits, however the
calls of the holders are interleaved and whatever fails between them (`NumberedAt`).
-/

namespace IdMint
namespace Fleet

open Generator (Trail partsAt)

/-- The ids that came through a ref in a history, in its order. -/
def idsOf (f : Fleet) (ref : Ref) (visits : List Visit) : List UInt64 :=
  ((f.issues visits).filter (·.ref == ref)).map Issue.id

/-- The fleet after a history. -/
def after (f : Fleet) (visits : List Visit) : Fleet := (f.run (visits.map Visit.toCall)).2

/-- The report on a call that comes after a history. -/
def reportAfter (f : Fleet) (visits : List Visit) (ref : Ref) (supply : List Reading) :
    Report UInt64 := ((f.after visits).call ref supply).1

theorem after_cons (f : Fleet) (v : Visit) (rest : List Visit) :
    f.after (v :: rest) = (f.call v.ref v.supply).2.after rest := rfl

theorem idsOf_cons_of_eq {f : Fleet} {ref : Ref} {v : Visit} (h : v.ref = ref)
    (rest : List Visit) :
    f.idsOf ref (v :: rest) =
      (f.call v.ref v.supply).1.outcome.toOption.toList ++
        (f.call v.ref v.supply).2.idsOf ref rest := by
  rw [idsOf, issues_cons, List.filter_append, List.map_append]
  congr 1
  unfold Visit.issue?
  cases (f.call v.ref v.supply).1.outcome with
  | ok id => simp [Except.toOption, h]
  | error e => simp [Except.toOption]

theorem idsOf_cons_of_ne {f : Fleet} {ref : Ref} {v : Visit} (h : v.ref ≠ ref)
    (rest : List Visit) :
    f.idsOf ref (v :: rest) = (f.call v.ref v.supply).2.idsOf ref rest := by
  rw [idsOf, issues_cons, List.filter_append, List.map_append]
  unfold Visit.issue?
  cases (f.call v.ref v.supply).1.outcome with
  | ok id => simp [h, idsOf]
  | error e => simp [idsOf]

/-- **The ids that come through a ref are a trail of its generator.** -/
theorem trail_of_run {ref : Ref} (visits : List Visit) {f : Fleet} {g : Generator}
    (hg : f.get? ref = some g) (hs : g.Sound) :
    ∃ g', (f.after visits).get? ref = some g' ∧ g'.settings = g.settings ∧ g'.Sound ∧
      Trail g.settings g.progress (f.idsOf ref visits) g'.progress := by
  induction visits generalizing f g with
  | nil => exact ⟨g, hg, rfl, hs, rfl⟩
  | cons v rest ih =>
    rw [after_cons]
    by_cases hv : v.ref = ref
    · have hcall := call_of_get? (hv ▸ hg) v.supply
      have hafter : (f.call v.ref v.supply).2.get? ref = some (g.call v.supply).2 := by
        rw [get?_call, if_pos hv.symm, hv, hg]
        rfl
      obtain ⟨g', hg', hset, hs', htrail⟩ := ih hafter (hs.call v.supply)
      rw [Generator.settings_call] at hset htrail
      refine ⟨g', hg', hset, hs', ?_⟩
      rw [idsOf_cons_of_eq hv, hcall]
      exact (Trail.ofCall hs v.supply).append (hcall ▸ htrail)
    · have hafter : (f.call v.ref v.supply).2.get? ref = some g := by
        rw [get?_call, if_neg (Ne.symm hv), hg]
      rw [idsOf_cons_of_ne hv]
      exact ih hafter hs

/-- How the ids that came through a ref in a history are numbered within a millisecond. -/
structure NumberedAt (f : Fleet) (ref : Ref) (visits : List Visit) (s : Settings) (ms : Int) :
    Prop where
  /-- From zero and without a gap, in the order in which they were handed out. -/
  sequences : ∃ k ≤ 4096,
    (partsAt s ms (f.idsOf ref visits)).map (·.sequence.toNat) = List.range k
  /-- After all ids of earlier milliseconds, and before all ids of later ones. -/
  together : ∃ before after,
    (f.idsOf ref visits).map Layout.unpack =
        before ++ partsAt s ms (f.idsOf ref visits) ++ after ∧
      (∀ parts ∈ before, (parts.time.toNat : Int) < ms - s.epochMs.toInt) ∧
      ∀ parts ∈ after, ms - s.epochMs.toInt < parts.time.toNat
  /-- Once there are 4096 of them, a call can only fail, or issue an id for a later millisecond. -/
  full : (partsAt s ms (f.idsOf ref visits)).length = 4096 → ∀ supply id,
    ((f.after visits).call ref supply).1.outcome = .ok id →
      ms - s.epochMs.toInt < (Layout.unpack id).time.toNat

/-- **The ids of every millisecond are numbered densely**, however the calls of those who hold the
generator are interleaved, whatever the clock reads, and whatever fails between them. -/
theorem ids_numbered {b : Blueprint} {reading : List Reading} {g : Generator}
    (built : (b.build reading).outcome = .ok g) {f : Fleet} {ref : Ref}
    (held : f.get? ref = some g) (visits : List Visit) (ms : Int) :
    NumberedAt f ref visits g.settings ms := by
  have hs : g.settings.Valid := (Blueprint.build_ok built).1
  have hnew : g.progress = {} := (Blueprint.build_ok built).2.1
  obtain ⟨g', hg', hset, hsound, htrail⟩ := trail_of_run visits held (.ofBuild built)
  rw [hnew] at htrail
  refine ⟨htrail.exists_range hs ms, htrail.exists_split hs ms, ?_⟩
  intro hfull supply id hok
  rw [call_of_get? hg'] at hok
  have hissues := Generator.Issues.ofCall hsound hok
  rw [hset] at hissues
  exact htrail.later_of_full hs hissues hfull

/-- Two callers, a refusal after the first id and a wait after the second: the millisecond has three
ids, and the next one goes to the one after it. -/
theorem ids_numbered_over_refusal :
    let s : Settings := { epochMs := 1000, dataCenter := 3, worker := 7, policy := .wait 5 }
    let f : Fleet := { members := #[{ settings := s }] }
    let visits : List Visit :=
      [{ caller := 0, ref := 0, supply := [.time 3000] },
       { caller := 1, ref := 0, supply := [.time 2900] },
       { caller := 1, ref := 0, supply := [.time 3000] },
       { caller := 0, ref := 0, supply := [.time 2998, .time 2999, .time 3000] },
       { caller := 1, ref := 0, supply := [.time 3001] }]
    (partsAt s 3000 (f.idsOf 0 visits)).map (·.sequence.toNat) = [0, 1, 2] ∧
      (f.idsOf 0 visits).length = 4 ∧ NumberedAt f 0 visits s 3000 := by
  have built : (({ epochMs := 1000, dataCenter := 3, worker := 7, policy := .wait 5 } :
      Blueprint).build [.time 2000]).outcome = .ok { settings :=
        { epochMs := 1000, dataCenter := 3, worker := 7, policy := .wait 5 } } := by rfl
  exact ⟨by decide, by decide, ids_numbered built (by rfl) _ _⟩

end Fleet
end IdMint

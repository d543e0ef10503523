import IdMint.Proofs.Fleet.Calls

/-!
# The ids of a history

A history is any list of calls on the generators of a fleet, each made by some caller. Callers that
hold one ref hold one generator between them, so a list of calls in which a ref comes up under many
callers is an interleaving of the calls that its holders make. Each call brings the readings that it
may take, and nothing is asked of them: clocks may be shared, stand still, jump, fail or run dry.

The ids of a history are kept with the caller and the ref that they went through (`Fleet.issues`).
Two facts about them carry the rest of this file, and both are about a single ref:

* the ids of a generator are places above where it stood (`place_of_mem_issues`), hence in order
  (`issues_ordered`);
* a place shows its machine, so ids of two machines are never equal.
-/

namespace IdMint
namespace Fleet

/-! ## Histories -/

/-- A call in a history, and who makes it. -/
structure Visit extends Call where
  caller : Nat

/-- An id as it was handed out: to whom, by which generator. -/
structure Issue where
  caller : Nat
  ref : Ref
  id : UInt64
  deriving DecidableEq, Repr

/-- The id that a visit ended with, if it did. -/
def Visit.issue? (v : Visit) (report : Report UInt64) : Option Issue :=
  match report.outcome with
  | .ok id => some { caller := v.caller, ref := v.ref, id }
  | .error _ => none

/-- The ids that a history hands out, in its order. -/
def issues (f : Fleet) (visits : List Visit) : List Issue :=
  (visits.zip (f.run (visits.map Visit.toCall)).1).filterMap fun (v, report) => v.issue? report

theorem run_cons (f : Fleet) (c : Call) (rest : List Call) :
    (f.run (c :: rest)).1 = (f.call c.ref c.supply).1 :: ((f.call c.ref c.supply).2.run rest).1 :=
  rfl

theorem issues_nil (f : Fleet) : f.issues [] = [] := rfl

theorem issues_cons (f : Fleet) (v : Visit) (rest : List Visit) :
    f.issues (v :: rest) =
      (v.issue? (f.call v.ref v.supply).1).toList ++ (f.call v.ref v.supply).2.issues rest := by
  rw [issues, List.map_cons, run_cons, List.zip_cons_cons, List.filterMap_cons]
  dsimp only
  cases v.issue? (f.call v.ref v.supply).1 with
  | none => rfl
  | some i => rfl

theorem Visit.issue?_eq_some {v : Visit} {report : Report UInt64} {i : Issue}
    (h : v.issue? report = some i) :
    i.caller = v.caller ∧ i.ref = v.ref ∧ report.outcome = .ok i.id := by
  unfold issue? at h
  split at h
  · rename_i id ho
    cases h
    exact ⟨rfl, rfl, ho⟩
  · exact nomatch h

/-! ## The ids of one generator -/

/-- A ref stands for a generator that was built, or for none. -/
def SoundAt (f : Fleet) (ref : Ref) : Prop := ∀ g, f.get? ref = some g → g.Sound

theorem SoundAt.call {f : Fleet} {ref : Ref} (h : f.SoundAt ref) (called : Ref)
    (supply : List Reading) : (f.call called supply).2.SoundAt ref := by
  intro g hg
  rw [get?_call] at hg
  split at hg
  · rename_i he
    obtain ⟨g₀, hg₀, rfl⟩ := Option.map_eq_some_iff.mp hg
    exact (h g₀ (by rw [he, hg₀])).call supply
  · exact h g hg

theorem mem_issues_cons {f : Fleet} {v : Visit} {rest : List Visit} {i : Issue} :
    i ∈ f.issues (v :: rest) ↔
      v.issue? (f.call v.ref v.supply).1 = some i ∨ i ∈ (f.call v.ref v.supply).2.issues rest := by
  rw [issues_cons, List.mem_append, Option.mem_toList]

theorem visit_of_mem_issues {i : Issue} : ∀ {f : Fleet} {visits : List Visit},
    i ∈ f.issues visits → ∃ v ∈ visits, v.caller = i.caller ∧ v.ref = i.ref
  | _, [], h => absurd h (by simp [issues_nil])
  | _, v :: rest, h => by
    rcases mem_issues_cons.mp h with hv | hr
    · obtain ⟨hc, hr, -⟩ := Visit.issue?_eq_some hv
      exact ⟨v, List.mem_cons_self, hc.symm, hr.symm⟩
    · obtain ⟨w, hw, hi⟩ := visit_of_mem_issues hr
      exact ⟨w, List.mem_cons_of_mem _ hw, hi⟩

theorem get?_of_issue? {f : Fleet} {v : Visit} {i : Issue}
    (h : v.issue? (f.call v.ref v.supply).1 = some i) : ∃ g, f.get? v.ref = some g := by
  obtain ⟨-, -, ho⟩ := Visit.issue?_eq_some h
  cases hg : f.get? v.ref with
  | none =>
    simp only [Fleet.call, hg] at ho
    cases ho
  | some g => exact ⟨g, rfl⟩

theorem get?_of_mem_issues {i : Issue} : ∀ {f : Fleet} {visits : List Visit},
    i ∈ f.issues visits → ∃ g, f.get? i.ref = some g
  | _, [], hi => absurd hi (by simp [issues_nil])
  | f, v :: rest, hi => by
    rcases mem_issues_cons.mp hi with hv | hrest
    · rw [(Visit.issue?_eq_some hv).2.1]
      exact get?_of_issue? hv
    · obtain ⟨g, hg⟩ := get?_of_mem_issues hrest
      obtain ⟨g₀, hg₀, -⟩ := call_keeps _ _ _ _ _ hg
      exact ⟨g₀, hg₀⟩

/-- A visit that ended with an id moved its generator to the place of that id. -/
theorem Visit.issues_of_issue? {f : Fleet} {v : Visit} {i : Issue} {g : Generator}
    (h : v.issue? (f.call v.ref v.supply).1 = some i) (hg : f.get? v.ref = some g)
    (hs : g.Sound) :
    Generator.Issues g.settings g.progress i.id (g.call v.supply).2.progress := by
  obtain ⟨-, -, ho⟩ := issue?_eq_some h
  rw [call_of_get? hg] at ho
  exact .ofCall hs ho

/-- **The ids of a generator stand above where it stood**, each at a place of its own settings. -/
theorem place_of_mem_issues {ref : Ref} {i : Issue} (hr : i.ref = ref) :
    ∀ {f : Fleet} {g : Generator} {visits : List Visit}, f.get? ref = some g → g.Sound →
      i ∈ f.issues visits → ∃ p : Progress, p.Issued g.settings ∧
        g.settings.place g.progress < g.settings.place p ∧ (i.id.toNat : Int) = g.settings.place p
  | _, _, [], _, _, hi => absurd hi (by simp [issues_nil])
  | f, g, v :: rest, hg, hs, hi => by
    -- The generator after the visit, which may have been to another one.
    obtain ⟨g', hg', hset, hle, hs'⟩ : ∃ g', (f.call v.ref v.supply).2.get? ref = some g' ∧
        g'.settings = g.settings ∧
        g.settings.place g.progress ≤ g.settings.place g'.progress ∧ g'.Sound := by
      rw [get?_call]
      by_cases he : ref = v.ref
      · rw [if_pos he, ← he, hg]
        exact ⟨_, rfl, Generator.settings_call g v.supply, Generator.place_le_call hs v.supply,
          hs.call v.supply⟩
      · rw [if_neg he]
        exact ⟨g, hg, rfl, Int.le_refl _, hs⟩
    rcases mem_issues_cons.mp hi with hv | hrest
    · obtain ⟨-, hvr, -⟩ := Visit.issue?_eq_some hv
      have hgv : f.get? v.ref = some g := by rw [← hvr, hr, hg]
      have hq := Visit.issues_of_issue? hv hgv hs
      exact ⟨_, hq.issued, hq.next.place_lt hs.progress.sequence_lt, hq.toNat_id⟩
    · obtain ⟨p, hp, hlt, hid⟩ := place_of_mem_issues hr hg' hs' hrest
      rw [hset] at hp hlt hid
      exact ⟨p, hp, by omega, hid⟩

/-- In a history, of two ids of one generator the one handed out later is larger. -/
theorem issues_ordered : ∀ (f : Fleet) (visits : List Visit),
    (f.issues visits).Pairwise fun i j => f.SoundAt i.ref → i.ref = j.ref → i.id < j.id
  | _, [] => .nil
  | f, v :: rest => by
    rw [issues_cons, List.pairwise_append]
    refine ⟨?_, ?_, ?_⟩
    · cases v.issue? (f.call v.ref v.supply).1 with
      | none => exact .nil
      | some i => exact List.pairwise_singleton _ _
    · exact (issues_ordered _ rest).imp fun h hs => h (hs.call v.ref v.supply)
    · intro i hi j hj hs hij
      rw [Option.mem_toList] at hi
      obtain ⟨-, hvr, -⟩ := Visit.issue?_eq_some hi
      obtain ⟨g, hg⟩ := get?_of_issue? hi
      have hsg : g.Sound := hs g (by rw [hvr, hg])
      have hi' := Visit.issues_of_issue? hi hg hsg
      have hg' : (f.call v.ref v.supply).2.get? j.ref = some (g.call v.supply).2 := by
        rw [get?_call, if_pos (hij.symm.trans hvr), hg]
        simp only [Option.map_some]
      obtain ⟨p, -, hlt, hid⟩ := place_of_mem_issues rfl hg' (hsg.call v.supply) hj
      rw [Generator.settings_call] at hlt hid
      rw [← hi'.toNat_id] at hlt
      rw [UInt64.lt_iff_toNat_lt]
      omega

/-! ## Uniqueness -/

/-- Two refs stand for one generator, or for machines with different marks. -/
def ApartAt (f : Fleet) (i j : Ref) : Prop :=
  ∀ g h, f.get? i = some g → f.get? j = some h → i ≠ j →
    (g.settings.dataCenter, g.settings.worker) ≠ (h.settings.dataCenter, h.settings.worker)

/-- Nothing has to be known of the order of calls on two generators, nor of their epochs: the marks
alone keep their ids apart. -/
theorem ref_eq_of_id_eq {f : Fleet} {visits : List Visit} {i j : Issue}
    (hi : i ∈ f.issues visits) (hj : j ∈ f.issues visits) (hsi : f.SoundAt i.ref)
    (hsj : f.SoundAt j.ref) (ha : f.ApartAt i.ref j.ref) (h : i.id = j.id) : i.ref = j.ref := by
  obtain ⟨g, hg⟩ := get?_of_mem_issues hi
  obtain ⟨g', hg'⟩ := get?_of_mem_issues hj
  obtain ⟨p, hp, -, hid⟩ := place_of_mem_issues rfl hg (hsi g hg) hi
  obtain ⟨p', hp', -, hid'⟩ := place_of_mem_issues rfl hg' (hsj g' hg') hj
  have hvg := (hsi g hg).settings
  have hvg' := (hsj g' hg').settings
  have hm : g.settings.machine = g'.settings.machine := by
    rw [← hp.machine_eq hvg hid, ← hp'.machine_eq hvg' hid', h]
  exact Decidable.byContradiction fun hne => ha g g' hg hg' hne (hvg.machine_inj hvg' hm)

/-- What is asked of the refs is asked only of those that an id came through. -/
theorem issues_nodup {f : Fleet} {visits : List Visit}
    (hs : ∀ i ∈ f.issues visits, f.SoundAt i.ref)
    (ha : ∀ i ∈ f.issues visits, ∀ j ∈ f.issues visits, f.ApartAt i.ref j.ref) :
    ((f.issues visits).map Issue.id).Nodup := by
  refine List.pairwise_map.mpr ((issues_ordered f visits).imp_of_mem fun {i j} hi hj h heq => ?_)
  have hij : i.ref = j.ref := ref_eq_of_id_eq hi hj (hs i hi) (hs j hj) (ha i hi j hj) heq
  exact UInt64.ne_of_lt (h (hs i hi) hij) heq

/-- **The ids of one generator increase.** However many callers hold it, in whatever order their
calls come, and whatever the clock reads on the way, each id is above all that came before it. So no
id comes twice, and each caller sees its own ids increase. -/
theorem ids_increase {b : Blueprint} {reading : List Reading} {g : Generator}
    (built : (b.build reading).outcome = .ok g) {f : Fleet} {ref : Ref}
    (held : f.get? ref = some g) (visits : List Visit) :
    let issued := (f.issues visits).filter (·.ref == ref)
    (issued.map Issue.id).Pairwise (· < ·) ∧ (issued.map Issue.id).Nodup ∧
      ∀ caller, ((issued.filter (·.caller == caller)).map Issue.id).Pairwise (· < ·) := by
  intro issued
  have hs : f.SoundAt ref := by
    intro g' hg'
    rw [held, Option.some.injEq] at hg'
    exact hg' ▸ .ofBuild built
  have hup : issued.Pairwise fun i j => i.id < j.id := by
    refine ((issues_ordered f visits).filter _).imp_of_mem fun {i j} hi hj h => ?_
    have hir : i.ref = ref := by simpa using (List.mem_filter.mp hi).2
    have hjr : j.ref = ref := by simpa using (List.mem_filter.mp hj).2
    exact h (hir ▸ hs) (hir.trans hjr.symm)
  refine ⟨List.pairwise_map.mpr hup, ?_, fun caller => List.pairwise_map.mpr (hup.filter _)⟩
  exact List.pairwise_map.mpr (hup.imp fun h => UInt64.ne_of_lt h)

/-- Two callers and a clock that goes back twice: by more than the policy waits for, and then by
less. -/
theorem ids_increase_over_setbacks :
    let s : Settings := { epochMs := 1000, dataCenter := 3, worker := 7, policy := .wait 5 }
    let f : Fleet := { members := #[{ settings := s }] }
    let issued := (f.issues
      [{ caller := 0, ref := 0, supply := [.time 3000] },
       { caller := 1, ref := 0, supply := [.time 3000] },
       { caller := 0, ref := 0, supply := [.time 2900] },
       { caller := 1, ref := 0, supply := [.time 2998, .time 2999, .time 3000] },
       { caller := 0, ref := 0, supply := [.time 3001] }]).filter (·.ref == 0)
    issued.length = 4 ∧ (issued.map Issue.id).Pairwise (· < ·) ∧ (issued.map Issue.id).Nodup ∧
      ∀ caller, ((issued.filter (·.caller == caller)).map Issue.id).Pairwise (· < ·) :=
  let b : Blueprint := { epochMs := 1000, dataCenter := 3, worker := 7, policy := .wait 5 }
  have built : (b.build [.time 2000]).outcome = .ok { settings :=
      { epochMs := 1000, dataCenter := 3, worker := 7, policy := .wait 5 } } := by rfl
  ⟨by decide, ids_increase built (by rfl) _⟩

/-- **No id comes twice out of a fleet** whose generators were built with different marks: not from
one of them and not from two, whatever their epochs, policies and clocks. -/
theorem ids_distinct {f : Fleet}
    (built : ∀ ref g, f.get? ref = some g → ∃ b : Blueprint, ∃ reading,
      (b.build reading).outcome = .ok g)
    (apart : ∀ i j, f.ApartAt i j) (visits : List Visit) :
    ((f.issues visits).map Issue.id).Nodup := by
  have hs (ref : Ref) : f.SoundAt ref := by
    intro g hg
    obtain ⟨b, reading, h⟩ := built ref g hg
    exact .ofBuild h
  exact issues_nodup (fun i _ => hs i.ref) fun i _ j _ => apart i.ref j.ref

/-- Two workers that read one clock in the same millisecond, the second with an epoch of its own. -/
theorem ids_distinct_two_workers :
    let f : Fleet :=
      { members := #[{ settings := { worker := 1 } }, { settings := { worker := 2, epochMs := 9 } }] }
    let issued := f.issues
      [{ caller := 0, ref := 0, supply := [.time 10] }, { caller := 1, ref := 1, supply := [.time 10] },
       { caller := 1, ref := 0, supply := [.time 10] }, { caller := 0, ref := 1, supply := [.time 10] }]
    issued.length = 4 ∧ (issued.map Issue.id).Nodup := by
  intro f issued
  have members : ∀ ref g, f.get? ref = some g →
      ref = 0 ∧ g = { settings := { worker := 1 } } ∨
        ref = 1 ∧ g = { settings := { worker := 2, epochMs := 9 } } := by
    rintro (_ | _ | ref) g h
    · exact .inl ⟨rfl, (Option.some.inj h).symm⟩
    · exact .inr ⟨rfl, (Option.some.inj h).symm⟩
    · exact nomatch h
  refine ⟨by decide, ids_distinct (fun ref g h => ?_) (fun i j g h hi hj hne => ?_) _⟩
  · rcases members ref g h with ⟨-, rfl⟩ | ⟨-, rfl⟩
    · exact ⟨{ worker := 1 }, [.time 10], rfl⟩
    · exact ⟨{ worker := 2, epochMs := 9 }, [.time 10], rfl⟩
  · rcases members i g hi with ⟨rfl, rfl⟩ | ⟨rfl, rfl⟩ <;>
      rcases members j h hj with ⟨rfl, rfl⟩ | ⟨rfl, rfl⟩
    · exact absurd rfl hne
    · decide
    · decide
    · exact absurd rfl hne

end Fleet
end IdMint

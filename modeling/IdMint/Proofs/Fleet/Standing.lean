import IdMint.Proofs.Fleet.Numbering

/-!
# Where a generator stands

What a generator keeps between calls is its progress, and its progress is the id that it issued last:
the one can be read off the other, whatever calls were made and whatever became of them
(`Progress.Stands`). Until there is an id the progress is that of a new generator, whose millisecond
is the one before 1970. It never comes up again, since no epoch allows an id for it.

Progress only goes on (`Progress.Before`), and it does so with every id and with nothing else. A call
that fails leaves it where it was, however long it has waited, and so does a call on another
generator.
-/

namespace IdMint

namespace Progress

variable {s : Settings} {p q : Progress} {ids : List UInt64}

/-- From `p` to `q` a generator goes on: to a later millisecond, or within one. -/
def Before (p q : Progress) : Prop :=
  p.lastMs < q.lastMs ∨ p.lastMs = q.lastMs ∧ p.sequence < q.sequence

theorem Before.irrefl (p : Progress) : ¬ p.Before p := by
  rintro (h | ⟨-, h⟩)
  · exact Int64.lt_irrefl h
  · exact UInt16.lt_irrefl _ h

theorem Next.before (h : p.Next q) : p.Before q := by
  rcases h with ⟨hlt, -⟩ | ⟨heq, hsucc⟩
  · exact .inl (Int64.lt_iff_toInt_lt.mpr hlt)
  · refine .inr ⟨heq.symm, ?_⟩
    rw [UInt16.lt_iff_toNat_lt, hsucc]
    exact Nat.lt_succ_self _

/-- Where a generator stands that has issued these ids. It has issued none, or the last of them is
made of its progress and of its settings. -/
inductive Stands (s : Settings) : List UInt64 → Progress → Prop
  | unissued : Stands s [] { lastMs := -1, sequence := 0 }
  | issued {p : Progress} {elapsed : Int64} (earlier : List UInt64) :
      s.epochMs ≤ p.lastMs → p.lastMs.toInt < s.epochMs.toInt + 2 ^ 41 → p.sequence ≤ 4095 →
      Checked.sub p.lastMs s.epochMs = .ok elapsed →
      Stands s (earlier ++ [Layout.pack elapsed.toUInt64 s.dataCenter s.worker p.sequence]) p

/-- The millisecond before 1970 stands for no id, and no id is for it. -/
theorem Stands.lastMs_eq_iff (h : Stands s ids p) (hs : s.Valid) : p.lastMs = -1 ↔ ids = [] := by
  cases h with
  | unissued => exact ⟨fun _ => rfl, fun _ => rfl⟩
  | issued earlier hepoch =>
    have hnonneg := hs.epoch_nonneg
    rw [Int64.le_iff_toInt_le] at hepoch
    constructor
    · intro hlast
      rw [hlast, show (-1 : Int64).toInt = -1 from rfl] at hepoch
      omega
    · intro hnil
      simp at hnil

/-- An id is packed from the progress that it was issued at. -/
theorem Issued.exists_pack {id : UInt64} (h : p.Issued s) (hs : s.Valid)
    (hid : (id.toNat : Int) = s.place p) :
    ∃ elapsed, Checked.sub p.lastMs s.epochMs = .ok elapsed ∧
      Layout.pack elapsed.toUInt64 s.dataCenter s.worker p.sequence = id := by
  obtain ⟨f, rfl, htime, hdataCenter, hworker, hsequence⟩ := h.exists_fields hs hid
  have hlt := f.elapsed_lt
  have hword : f.elapsed.toInt64.toInt = f.elapsed.toNat := Layout.toInt_toInt64 (by omega)
  refine ⟨f.elapsed.toInt64, ?_, ?_⟩
  · rw [Checked.sub_eq_ok_iff, hword, htime]
  · rw [← hdataCenter, ← hworker, ← hsequence]
    rfl

end Progress

namespace Generator

variable {s : Settings} {q : Progress} {ids : List UInt64}

/-- **Whoever has left a trail from the beginning stands at its end.** -/
theorem Trail.stands (hs : s.Valid) (h : Trail s {} ids q) : Progress.Stands s ids q := by
  rcases List.eq_nil_or_concat ids with rfl | ⟨earlier, id, rfl⟩
  · obtain rfl : q = {} := h
    exact .unissued
  · rw [List.concat_eq_append] at h ⊢
    obtain ⟨r, -, hissues⟩ := h.of_concat
    have hissued := hissues.issued
    obtain ⟨elapsed, hsub, rfl⟩ := hissued.exists_pack hs hissues.toNat_id
    refine .issued earlier (Int64.le_iff_toInt_le.mpr hissued.epoch_le) hissued.lt_limit ?_ hsub
    rw [UInt16.le_iff_toNat_le]
    exact Nat.le_of_lt_succ hissued.sequence_lt

/-- **A call moves a generator on exactly if it ends with an id**, and otherwise not at all. -/
theorem before_call_iff {g : Generator} (hg : g.Sound) (supply : List Reading) :
    g.progress.Before (g.call supply).2.progress ↔ ∃ id, (g.call supply).1.outcome = .ok id := by
  rcases call_cases hg supply with ⟨id, q, hok, hissues, hafter⟩ | ⟨f, herror, -, hsame⟩
  · rw [hafter]
    exact ⟨fun _ => ⟨id, hok⟩, fun _ => hissues.next.before⟩
  · rw [hsame, herror]
    exact ⟨fun hbefore => absurd hbefore (Progress.Before.irrefl _), fun ⟨_, hok⟩ => nomatch hok⟩

theorem progress_call_of_not_before {g : Generator} (hg : g.Sound) {supply : List Reading}
    (h : ¬ g.progress.Before (g.call supply).2.progress) :
    (g.call supply).2.progress = g.progress := by
  rcases call_cases hg supply with ⟨id, q, hok, -, -⟩ | ⟨f, -, -, hsame⟩
  · exact absurd ((before_call_iff hg supply).mpr ⟨id, hok⟩) h
  · exact hsame

end Generator

/-! ## Histories -/

namespace Fleet

/-- How far the generator of a ref has come after a history. -/
def progressAfter (f : Fleet) (visits : List Visit) (ref : Ref) : Option Progress :=
  ((f.after visits).get? ref).map Generator.progress

theorem after_append (f : Fleet) (visits more : List Visit) :
    f.after (visits ++ more) = (f.after visits).after more := by
  induction visits generalizing f with
  | nil => rfl
  | cons v rest ih => rw [List.cons_append, after_cons, after_cons, ih]

/-- One more visit is a call on the generator, or it passes the generator by. -/
theorem progressAfter_concat {f : Fleet} {visits : List Visit} {ref : Ref} {g : Generator}
    (h : (f.after visits).get? ref = some g) (v : Visit) :
    f.progressAfter (visits ++ [v]) ref =
      some (if v.ref = ref then (g.call v.supply).2.progress else g.progress) := by
  have hafter : f.after (visits ++ [v]) = ((f.after visits).call v.ref v.supply).2 :=
    f.after_append visits [v]
  rw [progressAfter, hafter, get?_call]
  by_cases hv : v.ref = ref
  · rw [if_pos hv.symm, if_pos hv, hv, h]
    rfl
  · rw [if_neg (Ne.symm hv), if_neg hv, h]
    rfl

/-- What can be said of the progress of a generator at any point of a history. -/
structure Standing (f : Fleet) (ref : Ref) (visits : List Visit) (s : Settings) : Prop where
  stands : ∃ p, f.progressAfter visits ref = some p ∧ p.Stands s (f.idsOf ref visits)
  unissued_iff : ∀ p, f.progressAfter visits ref = some p →
    (p.lastMs = -1 ↔ f.idsOf ref visits = [])
  /-- Whatever comes after it, the last millisecond is never earlier. -/
  lastMs_le : ∀ more p q, f.progressAfter visits ref = some p →
    f.progressAfter (visits ++ more) ref = some q → p.lastMs ≤ q.lastMs
  /-- A visit moves the generator on exactly if it is a visit to it that ends with an id. -/
  before_iff : ∀ v p q, f.progressAfter visits ref = some p →
    f.progressAfter (visits ++ [v]) ref = some q →
      (p.Before q ↔ v.ref = ref ∧ ∃ id, (f.reportAfter visits ref v.supply).outcome = .ok id)
  /-- And if it does not, it leaves the generator where it was. -/
  eq_of_not_before : ∀ v p q, f.progressAfter visits ref = some p →
    f.progressAfter (visits ++ [v]) ref = some q → ¬ p.Before q → q = p

/-- **A generator stands at the id that it issued last**, however its calls are interleaved, whatever
its clock reads, and whatever fails; and it goes on with every id and with nothing else. -/
theorem standing_of_history {b : Blueprint} {reading : List Reading} {g : Generator}
    (built : (b.build reading).outcome = .ok g) {f : Fleet} {ref : Ref}
    (held : f.get? ref = some g) (visits : List Visit) : Standing f ref visits g.settings := by
  have hs : g.settings.Valid := (Blueprint.build_ok built).1
  have hnew : g.progress = {} := (Blueprint.build_ok built).2.1
  obtain ⟨g', hg', hset, hsound, htrail⟩ := trail_of_run visits held (.ofBuild built)
  rw [hnew] at htrail
  have hnow : f.progressAfter visits ref = some g'.progress := by
    rw [progressAfter, hg', Option.map_some]
  have hstands := htrail.stands hs
  refine ⟨⟨_, hnow, hstands⟩, ?_, ?_, ?_, ?_⟩
  · intro p hp
    obtain rfl : g'.progress = p := Option.some.inj (hnow.symm.trans hp)
    exact hstands.lastMs_eq_iff hs
  · intro more p q hp hq
    obtain rfl : g'.progress = p := Option.some.inj (hnow.symm.trans hp)
    obtain ⟨g'', hg'', -, -, hlater⟩ := trail_of_run more hg' hsound
    rw [progressAfter, after_append, hg'', Option.map_some] at hq
    obtain rfl : g''.progress = q := Option.some.inj hq
    exact Int64.le_iff_toInt_le.mpr hlater.lastMs_le
  · intro v p q hp hq
    obtain rfl : g'.progress = p := Option.some.inj (hnow.symm.trans hp)
    obtain rfl := Option.some.inj ((progressAfter_concat hg' v).symm.trans hq)
    rw [reportAfter, call_of_get? hg']
    by_cases hv : v.ref = ref
    · rw [if_pos hv, Generator.before_call_iff hsound]
      exact ⟨fun hid => ⟨hv, hid⟩, fun hid => hid.2⟩
    · rw [if_neg hv]
      exact ⟨fun hbefore => absurd hbefore (Progress.Before.irrefl _), fun hid => absurd hid.1 hv⟩
  · intro v p q hp hq hbefore
    obtain rfl : g'.progress = p := Option.some.inj (hnow.symm.trans hp)
    obtain rfl := Option.some.inj ((progressAfter_concat hg' v).symm.trans hq)
    by_cases hv : v.ref = ref
    · rw [if_pos hv] at hbefore ⊢
      exact Generator.progress_call_of_not_before hsound hbefore
    · rw [if_neg hv]

/-- A refusal, two ids of one millisecond with a wait before the second, and a third id after the
millisecond. -/
theorem standing_of_history_over_wait :
    let s : Settings := { epochMs := 1000, dataCenter := 3, worker := 7, policy := .wait 5 }
    let f : Fleet := { members := #[{ settings := s }] }
    let visits : List Visit :=
      [{ caller := 0, ref := 0, supply := [.time 999] },
       { caller := 1, ref := 0, supply := [.time 3000] },
       { caller := 0, ref := 0, supply := [.time 2998, .time 2999, .time 3000] }]
    let next : Visit := { caller := 1, ref := 0, supply := [.time 3001] }
    f.progressAfter visits 0 = some { lastMs := 3000, sequence := 1 } ∧
      f.progressAfter (visits ++ [next]) 0 = some { lastMs := 3001, sequence := 0 } ∧
      Standing f 0 visits s := by
  have built : (({ epochMs := 1000, dataCenter := 3, worker := 7, policy := .wait 5 } :
      Blueprint).build [.time 2000]).outcome = .ok { settings :=
        { epochMs := 1000, dataCenter := 3, worker := 7, policy := .wait 5 } } := by rfl
  exact ⟨by decide, by decide, standing_of_history built (by rfl) _⟩

end Fleet
end IdMint

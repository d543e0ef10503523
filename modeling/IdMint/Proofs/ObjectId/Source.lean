import Mathlib.Algebra.Group.Nat.Defs
import IdMint.ObjectId.Source
import IdMint.Proofs.BigEndian
import IdMint.Proofs.ObjectId.Order

/-!
# What a source hands out

The ids of a source are numbered by its counter, which goes up by one with every call and wraps
twice: the word wraps at its own end, and an id shows only the lowest three bytes of it. Both ends
are powers of two and the one divides the other, so the two wraps are one to whoever reads the ids:
the id of the k-th call shows the first counter plus k, around a circle of 2²⁴ numbers
(`exists_shows`).

Callers share nothing of a source but its counter, and each takes its number in one go. So the calls
of any number of callers are one list, in the order in which they took their numbers, and what is
said here of every list is said of every way in which callers may overlap.
-/

namespace IdMint.ObjectId

variable {s : Source} {id : ObjectId}

/-- What an id shows: these seconds, this process, and this counter. -/
structure Shows (id : ObjectId) (secs : UInt32) (process : List UInt8) (counter : Nat) : Prop where
  issuedSecs : id.issuedSecs = secs
  process : id.process = process
  counter : id.counter.toNat = counter

namespace Source

/-! ## One call -/

/-- An id shows what it was made of, and its counter as far as there is room for it. -/
theorem shows_mint (s : Source) (secs : UInt32) :
    (s.mint secs).1.Shows secs s.process (s.counter.toNat % 2 ^ 24) := by
  have hfront : (BigEndian.bytes 4 secs.toNat).length = 4 := BigEndian.length_bytes _ _
  have hprocess := s.length_process
  have hbytes : (s.mint secs).1.bytes = BigEndian.bytes 4 secs.toNat ++
      (s.process ++ BigEndian.bytes 3 (s.counter.toNat % counters)) := List.append_assoc _ _ _
  refine ⟨?_, ?_, ?_⟩
  · rw [← UInt32.toNat_inj, toNat_issuedSecs, hbytes, List.take_left' hfront,
      BigEndian.value_bytes]
    exact Nat.mod_eq_of_lt secs.toNat_lt
  · rw [ObjectId.process, hbytes, List.drop_left' hfront, List.take_left' hprocess]
  · rw [toNat_counter, hbytes, ← List.append_assoc, List.drop_left', BigEndian.value_bytes]
    · exact Nat.mod_mod _ _
    · rw [List.length_append, hfront, hprocess]

/-! ## Many calls -/

theorem mintAll_cons (s : Source) (secs : UInt32) (rest : List UInt32) :
    s.mintAll (secs :: rest) =
      ((s.mint secs).1 :: ((s.mint secs).2.mintAll rest).1, ((s.mint secs).2.mintAll rest).2) := rfl

theorem length_mintAll (s : Source) (calls : List UInt32) :
    (s.mintAll calls).1.length = calls.length := by
  induction calls generalizing s with
  | nil => rfl
  | cons secs rest ih => rw [mintAll_cons, List.length_cons, List.length_cons, ih]

/-- **The id of a call shows its number on the circle of counters.** Induction on the calls; the
source after a call is a source like any other, with a counter one further on or back at zero. -/
theorem exists_shows {k : Nat} {calls : List UInt32}
    (h : (s.mintAll calls).1[k]? = some id) :
    ∃ secs, calls[k]? = some secs ∧ id.Shows secs s.process ((s.counter.toNat + k) % 2 ^ 24) := by
  induction calls generalizing s k with
  | nil => exact nomatch h
  | cons secs rest ih =>
    rw [mintAll_cons] at h
    cases k with
    | zero =>
      obtain rfl : (s.mint secs).1 = id := Option.some.inj h
      exact ⟨secs, rfl, s.shows_mint secs⟩
    | succ k =>
      obtain ⟨secs', hcall, hshows⟩ := ih h
      have hnext : (s.mint secs).2.counter.toNat = (s.counter.toNat + 1) % 2 ^ 32 :=
        UInt32.toNat_add _ _
      refine ⟨secs', hcall, hshows.issuedSecs, hshows.process, ?_⟩
      rw [hshows.counter, hnext]
      omega

/-- Calls that are less than a whole circle apart have different numbers. -/
theorem ne_of_close {j k : Nat} {a b : ObjectId} {calls : List UInt32}
    (ha : (s.mintAll calls).1[j]? = some a) (hb : (s.mintAll calls).1[k]? = some b) (hjk : j < k)
    (hclose : k < j + 2 ^ 24) : a ≠ b := by
  rintro rfl
  obtain ⟨_, _, hj⟩ := exists_shows ha
  obtain ⟨_, _, hk⟩ := exists_shows hb
  have hsame := hj.counter.symm.trans hk.counter
  omega

/-- Ids that are numbered by a counter which starts here, each for the call in its place. -/
structure Numbered (s : Source) (calls : List UInt32) (ids : List ObjectId) : Prop where
  length : ids.length = calls.length
  shows : ∀ k (id : ObjectId), ids[k]? = some id →
    ∃ secs, calls[k]? = some secs ∧ id.Shows secs s.process ((s.counter.toNat + k) % 2 ^ 24)
  /-- No id comes again within a whole circle, whatever the calls ask for. -/
  apart : ∀ j k a b, ids[j]? = some a → ids[k]? = some b → j < k → k < j + 2 ^ 24 → a ≠ b
  readBack : ∀ id ∈ ids, ofText id.hex = .ok id

theorem numbered_mintAll (s : Source) (calls : List UInt32) :
    s.Numbered calls (s.mintAll calls).1 where
  length := s.length_mintAll calls
  shows _ _ h := exists_shows h
  apart _ _ _ _ ha hb hjk hclose := ne_of_close ha hb hjk hclose
  readBack id _ := ofText_hex id

/-- Both wraps at once: the word of the counter is at its end. -/
example :
    let s : Source := { process := [1, 2, 3, 4, 5], length_process := rfl, counter := 0xffffffff }
    (s.mintAll [7, 7]).1.map ObjectId.hex =
      ["000000070102030405ffffff", "000000070102030405000000"] := by
  decide

end Source
end IdMint.ObjectId

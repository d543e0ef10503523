/-!
# Directories

A directory keeps values under names. A name holds at most one value, and the last one set is the
one found; the laws beside the definitions say so for `set` and `erase`, and nothing else about how
the entries are kept is used.
-/

namespace IdMint

structure Directory (α : Type) where
  entries : List (String × α) := []
  deriving Repr, Inhabited

namespace Directory

variable {α : Type}

def get? (d : Directory α) (name : String) : Option α := d.entries.lookup name

def erase (d : Directory α) (name : String) : Directory α :=
  { entries := d.entries.filter fun entry => entry.1 != name }

/-- The directory with a value under a name, in place of what was there. -/
def set (d : Directory α) (name : String) (a : α) : Directory α :=
  { entries := (name, a) :: (d.erase name).entries }

theorem get?_erase (d : Directory α) (erased name : String) :
    (d.erase erased).get? name = if name = erased then none else d.get? name := by
  obtain ⟨entries⟩ := d
  simp only [get?, erase]
  induction entries with
  | nil => simp
  | cons entry rest ih =>
    obtain ⟨key, value⟩ := entry
    by_cases hk : key = erased
    · by_cases hn : name = erased
      · simpa [hk, hn] using ih
      · have other : (name == erased) = false := by simpa using hn
        simpa [hk, hn, List.lookup_cons, other] using ih
    · by_cases hn : name = key
      · simp [hk, hn]
      · have other : (name == key) = false := by simpa using hn
        simpa [hk, List.lookup_cons, other] using ih

theorem get?_set (d : Directory α) (changed name : String) (a : α) :
    (d.set changed a).get? name = if name = changed then some a else d.get? name := by
  have erased := get?_erase d changed name
  simp only [get?, set, List.lookup_cons] at *
  by_cases h : name = changed
  · simp [h]
  · have other : (name == changed) = false := by simpa using h
    simpa [h, other] using erased

end Directory
end IdMint

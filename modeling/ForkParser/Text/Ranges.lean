/-!
# ForkParser.Text.Ranges

Sets of characters given by ascending ranges of code points.  The Unicode
properties this library asks for (uppercase letters, blanks, identifier
characters, unprintable characters) are all stored this way.
-/

namespace ForkParser.Text

/-- Ranges of code points, both ends included, in ascending order and apart
from each other. -/
abbrev Ranges := List (Nat × Nat)

/-- Whether code point `n` lies in one of the ranges.  The ranges ascend, so
the walk stops at the first one that starts above `n`. -/
def Ranges.covers : Ranges → Nat → Bool
  | [], _ => false
  | (lo, hi) :: rest, n =>
    if n < lo then false else if n ≤ hi then true else covers rest n

/-- A covered code point lies between the ends of some range. -/
theorem Ranges.exists_mem_of_covers {rs : Ranges} {n : Nat} (h : rs.covers n = true) :
    ∃ r ∈ rs, r.1 ≤ n ∧ n ≤ r.2 := by
  induction rs with
  | nil => simp [covers] at h
  | cons r rest ih =>
    obtain ⟨lo, hi⟩ := r
    simp only [covers] at h
    split at h
    · simp at h
    · split at h
      · exact ⟨(lo, hi), by simp, by simp; omega⟩
      · obtain ⟨r, hr, hb⟩ := ih h
        exact ⟨r, by simp [hr], hb⟩

end ForkParser.Text

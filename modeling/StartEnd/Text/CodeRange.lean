/-!
# Properties of characters as ranges of code points

A property of characters is a list of closed, increasing and disjoint intervals
of code points. A character has the property exactly when its code point lies
in one of them.
-/

namespace StartEnd.Text

/-- Whether the code point of a character lies in one of the closed intervals. -/
def covered (ranges : List (Nat × Nat)) (character : Char) : Bool :=
  ranges.any fun range => range.1 ≤ character.toNat && character.toNat ≤ range.2

/-- A character is covered exactly when some interval holds its code point. -/
theorem covered_iff (ranges : List (Nat × Nat)) (character : Char) :
    covered ranges character = true ↔
      ∃ range ∈ ranges, range.1 ≤ character.toNat ∧ character.toNat ≤ range.2 := by
  simp [covered]

end StartEnd.Text

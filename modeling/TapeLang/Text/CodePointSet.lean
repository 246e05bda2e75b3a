/-!
# Sets of code points

A character property is given by the ranges of code points that have it.
The ranges are inclusive and stand in increasing order, so a table can be
read beside the property's published data.
-/

namespace TapeLang.Text

/-- A set of code points, as inclusive ranges in increasing order. -/
structure CodePointSet where
  /-- First and last code point of each range. -/
  ranges : List (Nat × Nat)

namespace CodePointSet

/-- Whether a character belongs to the set. -/
def contains (set : CodePointSet) (c : Char) : Bool :=
  set.ranges.any fun (first, last) => first ≤ c.toNat && c.toNat ≤ last

/-- A character is in the set exactly if one of the ranges holds it. -/
theorem contains_iff {set : CodePointSet} {c : Char} :
    set.contains c = true ↔ ∃ r ∈ set.ranges, r.1 ≤ c.toNat ∧ c.toNat ≤ r.2 := by
  simp [contains]

end CodePointSet

end TapeLang.Text

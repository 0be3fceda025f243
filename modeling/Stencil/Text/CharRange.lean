/-!
# Sets of characters given by ranges

A property of characters that a standard fixes by a table is held here as a list of closed
ranges of code points, and membership is a search through that list.

## Main definitions

* `CharRange` is one closed range.
* `CharRange.covers ranges c` says whether one of the ranges holds the code point of `c`.
-/

namespace Stencil

/-- A closed range of code points. -/
structure CharRange where
  /-- The first code point of the range. -/
  first : Nat
  /-- The last code point of the range. -/
  last : Nat
  deriving Repr, DecidableEq

namespace CharRange

/-- A code point lies in a range when it is between its ends. -/
def holds (r : CharRange) (n : Nat) : Bool :=
  r.first ≤ n && n ≤ r.last

/-- A character belongs to a table when one of its ranges holds its code point. -/
def covers (table : List CharRange) (c : Char) : Bool :=
  table.any (·.holds c.toNat)

theorem covers_iff {table : List CharRange} {c : Char} :
    covers table c = true ↔ ∃ r ∈ table, r.first ≤ c.toNat ∧ c.toNat ≤ r.last := by
  simp [covers, holds]

/-- The ranges written as pairs of their ends. -/
def table (ends : List (Nat × Nat)) : List CharRange :=
  ends.map fun e => ⟨e.1, e.2⟩

end CharRange

end Stencil

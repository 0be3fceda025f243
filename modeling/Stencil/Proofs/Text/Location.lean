import Stencil.Text.Cursor

/-!
# Locations

The line and the column at an offset of a text, counted from the characters in front of it. They are
what a cursor knows that has stepped over these characters. In the order of reading, first by lines
and then by columns, they grow with the offset, so that no two offsets of a text share a location.

## Main definitions

* `Place.behind before` is the place behind some characters, `location text p` that at an offset.
* `Place.Precedes` is the order of reading.

## Main results

* `Cursor.place_start_across`: cursors know locations.
* `location_precedes` and `location_injective`: locations grow with the offset.
-/

namespace Stencil

/-- The line behind some characters, one more than there are line feeds among them, and the column,
one more than there are characters behind the last of these. -/
def Place.behind (before : List Char) : Place :=
  ⟨1 + before.count '\n', 1 + (before.reverse.takeWhile (· ≠ '\n')).length⟩

/-- The line and column at an offset of a text. -/
def location (text : List Char) (p : Nat) : Place := .behind (text.take p)

/-- The order in which places are read. -/
def Place.Precedes (a b : Place) : Prop :=
  a.line < b.line ∨ (a.line = b.line ∧ a.column < b.column)

namespace Place

theorem Precedes.irrefl (a : Place) : ¬ a.Precedes a := by
  rintro (h | ⟨-, h⟩)
  · exact Nat.lt_irrefl _ h
  · exact Nat.lt_irrefl _ h

theorem Precedes.trans {a b c : Place} (hab : a.Precedes b) (hbc : b.Precedes c) :
    a.Precedes c := by
  unfold Precedes at *
  omega

theorem behind_concat (before : List Char) (c : Char) :
    behind (before ++ [c]) =
      if c = '\n' then ⟨(behind before).line + 1, 1⟩
      else ⟨(behind before).line, (behind before).column + 1⟩ := by
  split
  · next h =>
    subst h
    simp [behind, Nat.add_assoc]
  · next h => simp [behind, h, Nat.add_assoc]

/-- One more character leads to a later place. -/
theorem precedes_concat (before : List Char) (c : Char) :
    (behind before).Precedes (behind (before ++ [c])) := by
  rw [behind_concat]
  split
  · exact .inl (Nat.lt_succ_self _)
  · exact .inr ⟨rfl, Nat.lt_succ_self _⟩

end Place

namespace Cursor

theorem place_across {k : Cursor} {before : List Char} (h : k.place = .behind before)
    (s : List Char) : (k.across s).place = .behind (before ++ s) := by
  induction s generalizing k before with
  | nil => rw [across_nil, h, List.append_nil]
  | cons c s ih =>
    have hnext : (k.next c).place = .behind (before ++ [c]) := by
      rw [Place.behind_concat, next, h]
    rw [across_cons, ih hnext, List.append_assoc, List.singleton_append]

/-- **A cursor that has stepped over the characters in front of an offset knows its location.** -/
theorem place_start_across (s : List Char) : (start.across s).place = .behind s := by
  have hstart : start.place = .behind [] := rfl
  exact place_across hstart s

end Cursor

section

variable {text : List Char} {p q : Nat}

theorem location_precedes_succ (hp : p < text.length) :
    (location text p).Precedes (location text (p + 1)) := by
  rw [location, location, ← List.take_append_getElem hp]
  exact Place.precedes_concat _ _

/-- **Locations grow with the offset.** -/
theorem location_precedes (hpq : p < q) (hq : q ≤ text.length) :
    (location text p).Precedes (location text q) := by
  induction q with
  | zero => exact absurd hpq (Nat.not_lt_zero p)
  | succ q ih =>
    have hlast := location_precedes_succ (Nat.lt_of_succ_le hq)
    rcases Nat.lt_succ_iff_lt_or_eq.mp hpq with hlt | rfl
    · exact (ih hlt (Nat.le_of_succ_le hq)).trans hlast
    · exact hlast

/-- No two offsets of a text share a location. -/
theorem location_injective (hp : p ≤ text.length) (hq : q ≤ text.length)
    (h : location text p = location text q) : p = q := by
  rcases Nat.lt_trichotomy p q with hlt | heq | hgt
  · exact absurd (h ▸ location_precedes hlt hq) (Place.Precedes.irrefl _)
  · exact heq
  · exact absurd (h ▸ location_precedes hgt hp) (Place.Precedes.irrefl _)

end

end Stencil

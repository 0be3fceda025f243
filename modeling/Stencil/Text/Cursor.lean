/-!
# Places in a source text

A *cursor* is a place in a source text: how many characters stand before it, and the line and
column a reader counts there. Lines and columns start at one, and only a line feed ends a line.

## Main definitions

* `Cursor.next c` steps over one character, `Cursor.across s` over a run of them.
* `Place` is the line and column alone, as error reports give it; line zero means *unknown*.

## Main results

* `Cursor.across_append`: stepping over two runs is stepping over their concatenation.
* `Cursor.across_offset`: the offset grows by the length of the run.
-/

namespace Stencil

/-- A line and a column as a reader counts them; line zero stands for an unknown place. -/
structure Place where
  line : Nat
  column : Nat
  deriving Repr, DecidableEq, Inhabited

/-- The place that stands for no place. -/
def Place.unknown : Place := ⟨0, 0⟩

/-- A place in a source text. -/
structure Cursor where
  /-- The number of characters before the cursor. -/
  offset : Nat
  /-- The line and column at the cursor. -/
  place : Place
  deriving Repr, DecidableEq

namespace Cursor

/-- The beginning of a text. -/
def start : Cursor := ⟨0, ⟨1, 1⟩⟩

/-- The cursor behind one more character. -/
def next (k : Cursor) (c : Char) : Cursor :=
  ⟨k.offset + 1,
    if c = '\n' then ⟨k.place.line + 1, 1⟩ else ⟨k.place.line, k.place.column + 1⟩⟩

/-- The cursor behind a run of characters. -/
def across (k : Cursor) (s : List Char) : Cursor :=
  s.foldl next k

@[simp] theorem across_nil (k : Cursor) : k.across [] = k := rfl

@[simp] theorem across_cons (k : Cursor) (c : Char) (s : List Char) :
    k.across (c :: s) = (k.next c).across s := rfl

theorem across_append (k : Cursor) (s t : List Char) : k.across (s ++ t) = (k.across s).across t :=
  List.foldl_append

@[simp] theorem next_offset (k : Cursor) (c : Char) : (k.next c).offset = k.offset + 1 := rfl

theorem across_offset (k : Cursor) (s : List Char) : (k.across s).offset = k.offset + s.length := by
  induction s generalizing k with
  | nil => rfl
  | cons c s ih => rw [across_cons, ih, next_offset, List.length_cons]; omega

end Cursor

end Stencil

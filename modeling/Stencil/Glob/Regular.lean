import Stencil.Text.CharRange

/-!
# Regular sets of texts

A regular set is built from classes of characters by concatenation, union and repetition. Whether a
text belongs to it is decided by *derivatives*: the derivative by a character holds what may follow
that character.

## Main definitions

* `CharClass` is a class of characters, `Regular` a regular set.
* `Regular.derive` is the derivative, `Regular.accepts` decides membership.

## Main results

* `Regular.accepts_cons`: a text belongs to a set when its rest belongs to the derivative.
-/

namespace Stencil

/-- A class of characters: those in the ranges, or all others. -/
structure CharClass where
  negated : Bool
  ranges : List CharRange
  deriving Repr, DecidableEq

namespace CharClass

/-- A character belongs to a class. -/
def holds (k : CharClass) (c : Char) : Bool :=
  CharRange.covers k.ranges c != k.negated

/-- The class of one character. -/
def only (c : Char) : CharClass := ⟨false, [⟨c.toNat, c.toNat⟩]⟩

/-- The class of every other character. -/
def except (c : Char) : CharClass := ⟨true, [⟨c.toNat, c.toNat⟩]⟩

/-- The class of all characters. -/
def any : CharClass := ⟨true, []⟩

/-- Every character belongs to the class of all. -/
@[simp] theorem holds_any (c : Char) : any.holds c = true := rfl

end CharClass

/-- A regular set of texts. -/
inductive Regular
  /-- No text. -/
  | nothing
  /-- The empty text. -/
  | empty
  /-- One character of a class. -/
  | one (k : CharClass)
  /-- A text of the first set and one of the second behind it. -/
  | both (r s : Regular)
  /-- A text of either set. -/
  | either (r s : Regular)
  /-- Any number of texts of a set, one behind the other. -/
  | many (r : Regular)
  deriving Repr, DecidableEq

namespace Regular

/-- Whether the empty text belongs to a set. -/
def hasEmpty : Regular → Bool
  | nothing => false
  | empty => true
  | one _ => false
  | both r s => r.hasEmpty && s.hasEmpty
  | either r s => r.hasEmpty || s.hasEmpty
  | many _ => true

/-- Concatenation, in short form where a part is trivial. -/
def follow : Regular → Regular → Regular
  | nothing, _ => nothing
  | _, nothing => nothing
  | empty, s => s
  | r, s => both r s

/-- The parts of a union. -/
def parts : Regular → List Regular
  | nothing => []
  | either r s => r.parts ++ s.parts
  | r => [r]

/-- The union of several sets. -/
def unionOf : List Regular → Regular
  | [] => nothing
  | [r] => r
  | r :: rs => either r (unionOf rs)

/-- Union, with every part once. -/
def union (r s : Regular) : Regular :=
  unionOf (r.parts ++ s.parts).eraseDups

/-- What may follow the character `c` in the texts of a set that begin with it. -/
def derive (c : Char) : Regular → Regular
  | nothing => nothing
  | empty => nothing
  | one k => if k.holds c then empty else nothing
  | both r s =>
    if r.hasEmpty then union (follow (r.derive c) s) (s.derive c) else follow (r.derive c) s
  | either r s => union (r.derive c) (s.derive c)
  | many r => follow (r.derive c) (many r)

/-- Whether a text belongs to a set. -/
def accepts (r : Regular) (s : List Char) : Bool :=
  (s.foldl (fun r c => r.derive c) r).hasEmpty

@[simp] theorem accepts_nil (r : Regular) : r.accepts [] = r.hasEmpty := rfl

/-- A text belongs to a set when its rest belongs to the derivative by its first character. -/
@[simp] theorem accepts_cons (r : Regular) (c : Char) (s : List Char) :
    r.accepts (c :: s) = (r.derive c).accepts s := rfl

/-- A character by itself. -/
def char (c : Char) : Regular := one (.only c)

/-- A text of a set, or the empty text. -/
def optional (r : Regular) : Regular := either empty r

/-- Any text at all. -/
def anything : Regular := many (one .any)

/-- Any text but the empty one. -/
def something : Regular := both (one .any) anything

end Regular

end Stencil

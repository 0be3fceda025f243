import Stencil.Text.CharRange

/-!
# Blank characters

*Blanks* separate the tokens of an expression: the ASCII blanks, the four information separators
U+001C to U+001F, the next-line control and the space separators, line and paragraph separators
of Unicode.

## Main definitions

* `isBlank` is the class.
* `trimEnd` and `trim` remove blanks at the ends of a text.
-/

namespace Stencil

/-- The blank characters. -/
def blankRanges : List CharRange := CharRange.table
  [(0x9, 0xD), (0x1C, 0x20), (0x85, 0x85), (0xA0, 0xA0), (0x1680, 0x1680), (0x2000, 0x200A),
   (0x2028, 0x2029), (0x202F, 0x202F), (0x205F, 0x205F), (0x3000, 0x3000)]

/-- A blank separates tokens and carries no other meaning. -/
def isBlank (c : Char) : Bool :=
  CharRange.covers blankRanges c

/-- Every character that core counts as whitespace is a blank. -/
theorem isBlank_of_isWhitespace {c : Char} (h : c.isWhitespace = true) : isBlank c = true := by
  simp only [Char.isWhitespace, Bool.or_eq_true, decide_eq_true_eq] at h
  rcases h with ((rfl | rfl) | rfl) | rfl <;> decide

/-- The text without the blanks at its end. -/
def trimEnd (s : String) : String :=
  String.ofList (s.toList.reverse.dropWhile isBlank).reverse

/-- The text without the blanks at both ends. -/
def trim (s : String) : String :=
  trimEnd (String.ofList (s.toList.dropWhile isBlank))

end Stencil

import Stencil.Text.Printable

/-!
# Displayed strings

Messages show an offending string between single quotes. A text that contains a single quote and
no double quote is shown between double quotes instead. Backslashes, line breaks, tabs and the
quote in use are escaped, and every character that is not printable is shown by its code.

## Main definitions

* `display` is the shown form of a text.
* `displayList` is the shown form of a list of texts.
-/

namespace Stencil

namespace Display

/-- The last `width` hexadecimal digits of a number, in lower case. -/
def hex (width n : Nat) : List Char :=
  (List.range width).reverse.map fun i => Nat.digitChar (n / Nat.pow 16 i % 16)

/-- How one character is shown between the given quotes. -/
def showChar (mark c : Char) : List Char :=
  if c = mark ∨ c = '\\' then ['\\', c]
  else if c = '\n' then ['\\', 'n']
  else if c = '\r' then ['\\', 'r']
  else if c = '\t' then ['\\', 't']
  else if isPrintable c then [c]
  else if c.toNat < 0x100 then '\\' :: 'x' :: hex 2 c.toNat
  else if c.toNat < 0x10000 then '\\' :: 'u' :: hex 4 c.toNat
  else '\\' :: 'U' :: hex 8 c.toNat

/-- The quote put around a text: double only where it avoids escaping a single one. -/
def mark (s : List Char) : Char :=
  if s.contains '\'' && !s.contains '"' then '"' else '\''

end Display

/-- The shown form of a text. -/
def display (s : String) : String :=
  let cs := s.toList
  let mark := Display.mark cs
  String.ofList (mark :: cs.flatMap (Display.showChar mark) ++ [mark])

/-- The shown form of a list of texts: in brackets, separated by commas. -/
def displayList (items : List String) : String :=
  "[" ++ ", ".intercalate (items.map display) ++ "]"

end Stencil

import Stencil.Template.Parser

/-!
# Templates

A template has a name, against which the inclusions in it are resolved, and a list of elements. A
*raw* template is text that is written as it stands, without being parsed.

## Main definitions

* `Template` is the type of templates.
* `Template.ofText` parses a source, `Template.raw` takes it as it is.
* `Template.canonical` is source text that denotes a template, `Template.trace` has a line for each
  of its elements.
-/

namespace Stencil

/-- A template. -/
structure Template where
  /-- The normalized name; empty when there is none. -/
  name : String
  root : List Element
  /-- Where the source came from. -/
  sourceName : String
  /-- The charset of the source, unless it was text from the start. -/
  encoding : Option String
  /-- Whether the source was parsed. -/
  parsed : Bool
  deriving Repr, Inhabited

namespace Template

/-- The template of a source text. Without a name of its own, the source goes by the name of the
template. -/
def ofText (source name : String) (sourceName : String) (encoding : Option String) :
    Except Failure Template := do
  let root ← parseTemplate source name
  return ⟨name, root, if sourceName = "" then name else sourceName, encoding, true⟩

/-- The template that writes a text as it stands. -/
def raw (source name : String) (sourceName : String) (encoding : Option String) : Template :=
  ⟨name, if source = "" then [] else [.text ⟨1, 1⟩ source],
    if sourceName = "" then name else sourceName, encoding, false⟩

/-- The source text that denotes a template. -/
def canonical (t : Template) : String :=
  Element.canonicalAll t.root

/-- The elements of a template, one on each line, as a trace shows them. -/
def trace (t : Template) : String :=
  "\n".intercalate (t.root.map Element.trace)

end Template

end Stencil

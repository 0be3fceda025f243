import Stencil.Name

/-!
# Paths of files

A path leads from a directory along segments to a file or to another directory. Segments that are
empty or a single point say nothing and are dropped; two points lead up.

## Main definitions

* `FilePath.ofText` reads a path, `FilePath.text` writes it.
* `FilePath.join` continues one path by another, `FilePath.parent` drops the last segment.
* `FilePath.settle` takes the steps up without looking at files.

## Main results

* `FilePath.join_of_absolute`: an absolute path does not depend on where it is looked up.
-/

namespace Stencil

/-- A path. -/
structure FilePath where
  /-- Whether the path begins at the root of all directories. -/
  absolute : Bool
  segments : List String
  deriving Repr, DecidableEq

namespace FilePath

/-- Reads a path. -/
def ofText (s : String) : FilePath :=
  ⟨s.toList.head? = some '/',
    ((Name.segments s.toList).map String.ofList).filter fun t => t ≠ "" && t ≠ "."⟩

/-- Writes a path; the relative path without segments is a point. -/
def text (p : FilePath) : String :=
  if p.absolute then "/" ++ "/".intercalate p.segments
  else if p.segments.isEmpty then "."
  else "/".intercalate p.segments

/-- Continues a path by another one; an absolute one replaces it. -/
def join (p q : FilePath) : FilePath :=
  if q.absolute then q else ⟨p.absolute, p.segments ++ q.segments⟩

/-- An absolute path does not depend on where it is looked up. -/
theorem join_of_absolute (p : FilePath) {q : FilePath} (h : q.absolute = true) :
    p.join q = q := by
  simp [join, h]

/-- The path without its last segment. -/
def parent (p : FilePath) : FilePath :=
  ⟨p.absolute, p.segments.dropLast⟩

/-- Takes the steps up that segments contain, from the directory `done`, given innermost first; at
the root a step up stays there. -/
def settle (done : List String) : List String → List String
  | [] => done.reverse
  | s :: rest => if s = ".." then settle done.tail rest else settle (s :: done) rest

end FilePath

end Stencil

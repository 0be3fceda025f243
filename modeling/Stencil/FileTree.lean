import Stencil.FilePath
import Stencil.Glob
import Stencil.Store

/-!
# Trees of files

A tree of files, as far as it is known, with a working directory. Templates are found in a
directory of the tree, and never outside of it.

## Main definitions

* `FileTree.entry?` is what stands at a place of the tree, `FileTree.find?` what a path leads to.
* `FileTree.loader` finds templates in a directory, but for names that are excluded.

## Main results

* `FileTree.loader_of_excluded`: an excluded name has no source.
-/

namespace Stencil

/-- What stands at a place of a tree. -/
inductive FileEntry
  /-- A file with its bytes, or the reason why they cannot be read. -/
  | file (content : Except String (List UInt8))
  | directory

/-- A tree of files. -/
structure FileTree where
  /-- The segments that lead to the working directory. -/
  workingDirectory : List String
  /-- The known entries; the directories that lead to them are known with them. -/
  entries : List (List String × FileEntry)

namespace FileTree

/-- What stands at the place to which segments lead from the root. -/
def entry? (t : FileTree) (place : List String) : Option FileEntry :=
  match t.entries.lookup place with
  | some e => some e
  | none =>
    if place.isPrefixOf t.workingDirectory || t.entries.any (place.isPrefixOf ·.1) then
      some .directory
    else none

/-- The place to which segments lead from a place; only directories lead on. -/
def follow (t : FileTree) (place : List String) : List String → Option (List String)
  | [] => some place
  | s :: rest =>
    match t.entry? place with
    | some .directory => t.follow (if s = ".." then place.dropLast else place ++ [s]) rest
    | _ => none

/-- What a path leads to. -/
def find? (t : FileTree) (p : FilePath) : Option FileEntry :=
  (t.follow (if p.absolute then [] else t.workingDirectory) p.segments).bind t.entry?

/-- The bytes of the file that a path leads to. -/
def file? (t : FileTree) (p : FilePath) : Option (Except String (List UInt8)) :=
  match t.find? p with
  | some (.file content) => some content
  | _ => none

/-- A path leads to a directory. -/
def isDirectory (t : FileTree) (p : FilePath) : Bool :=
  match t.find? p with
  | some .directory => true
  | _ => false

/-- The place that a path names, whether or not something stands there. -/
def resolve (t : FileTree) (p : FilePath) : List String :=
  FilePath.settle [] ((if p.absolute then [] else t.workingDirectory) ++ p.segments)

/-- Finds templates in the directory `root`. The label of a source is its absolute path. -/
def loader (t : FileTree) (root : FilePath) (exclude : List Glob.Rule) : Loader where
  find name :=
    if Glob.excludes exclude name then none
    else
      let place := t.resolve (root.join (.ofText name))
      if (t.resolve root).isPrefixOf place then
        match t.entry? place with
        | some (.file content) => some ⟨FilePath.text ⟨true, place⟩, content⟩
        | _ => none
      else none

/-- An excluded name has no source. -/
theorem loader_of_excluded (t : FileTree) (root : FilePath) {exclude : List Glob.Rule}
    {name : String} (h : Glob.excludes exclude name = true) :
    (t.loader root exclude).find name = none := by
  simp [loader, h]

end FileTree

end Stencil

import Stencil.CommandLine

/-!
# The program

The outer layer: it reads the files that a command may need, runs the command over them, and writes
what the command leaves behind.

## Main definitions

* `main` is the program.
-/

namespace Stencil

/-- The segments of an absolute path. -/
def placeOf (path : String) : List String :=
  FilePath.settle [] (FilePath.ofText path).segments

/-- What a file holds, or why it cannot be read. -/
def readEntry (path : String) : IO FileEntry := do
  try
    return .file (.ok (← IO.FS.readBinFile path).toList)
  catch e =>
    return .file (.error (toString e))

/-- The directories that a path leads through. -/
def directoriesOn (path : FilePath) : IO (List (List String × FileEntry)) := do
  let start ← IO.currentDir
  let steps := (List.range path.segments.length).map fun k =>
    start / FilePath.text ⟨path.absolute, path.segments.take k⟩
  let present ← steps.filterM (·.isDir)
  return present.map fun p => (placeOf p.toString, .directory)

/-- The entries of a tree for the file or the directory at a path, with all that is below it. -/
def entriesBelow (path : FilePath) : IO (List (List String × FileEntry)) := do
  let start := (← IO.currentDir) / path.text
  if !(← start.pathExists) then directoriesOn path
  else if !(← start.isDir) then
    return (placeOf start.toString, ← readEntry start.toString) :: (← directoriesOn path)
  else
    let found ← start.walkDir
    let entries ← found.toList.mapM fun p => do
      if ← p.isDir then return (placeOf p.toString, FileEntry.directory)
      else return (placeOf p.toString, ← readEntry p.toString)
    return (placeOf start.toString, .directory) :: entries ++ (← directoriesOn path)

/-- The path of the configuration file that a command may read. -/
def wantedConfig (i : Invocation) : FilePath :=
  .ofText (i.config.getD configFileName)

/-- The tree of the files that a command may read: its configuration file, and the directory of
the templates. -/
def treeFor (i : Invocation) : IO FileTree := do
  let workingDirectory := (← IO.currentDir).toString
  let config ← entriesBelow (wantedConfig i)
  let tree : FileTree := ⟨placeOf workingDirectory, config⟩
  let root :=
    match configPath tree i.config with
    | .error _ => none
    | .ok path =>
      match settingsAt tree path with
      | .error _ => none
      | .ok settings => some (templateRoot i.root path settings)
  match root with
  | none => return tree
  | some root => return { tree with entries := config ++ (← entriesBelow root) }

/-- Writes the outcome of a command. -/
def Outcome.write (o : Outcome) : IO UInt32 := do
  (← IO.getStdout).putStr o.output
  (← IO.getStderr).putStr o.errors
  return o.exitCode.toUInt32

end Stencil

open Stencil in
/-- Runs the command that the arguments ask for. -/
def main (arguments : List String) : IO UInt32 := do
  match Invocation.ofArguments arguments with
  | .error stop => stop.outcome.write
  | .ok i =>
    match outcome (i.run (← treeFor i)) with
    | .ok o => o.write
    | .error e =>
      (← IO.getStderr).putStrLn e.text
      return 1

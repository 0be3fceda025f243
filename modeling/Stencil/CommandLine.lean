import Stencil.CommandLine.Arguments
import Stencil.Config
import Stencil.Engine
import Stencil.FileTree

/-!
# The command line

A command renders a template from a directory to the output, or prints it. The settings come from
a configuration file: the one that is named, or else the one in the working directory if there is
one. The directory of the templates is the one that is named, or else the one of the settings,
relative to the configuration file.

## Main definitions

* `CommandError` is why a command fails.
* `Invocation.run` runs a command over a tree of files.
* `Outcome` is what a command leaves behind, `outcome` that of a run.

## Main results

* `outcome_ok`: a command that succeeds reports no errors.
-/

namespace Stencil

/-- Why a command fails. -/
inductive CommandError
  | noConfig (path : String)
  | config (e : ConfigError)
  | noRoot (path : String)
  | pattern (e : Glob.PatternError)
  /-- A variable that is not written `KEY=VALUE`. -/
  | badVariable (text : String)
  | failure (e : Failure)

/-- The report of an error. -/
def CommandError.report : CommandError → String
  | noConfig path => "Config file not found: " ++ path
  | config e => e.message
  | noRoot path => "Template root not found: " ++ path
  | pattern e => e.message
  | badVariable text => "Invalid --var " ++ display text ++ ", expected KEY=VALUE"
  | failure e => e.report

/-! ## Settings and engine -/

/-- The path of the configuration file, if there is one. -/
def configPath (tree : FileTree) (given : Option String) : Except CommandError (Option FilePath) :=
  match given with
  | some text =>
    let path := FilePath.ofText text
    if (tree.file? path).isSome then .ok (some path) else .error (.noConfig path.text)
  | none =>
    let path : FilePath := ⟨true, tree.workingDirectory ++ [configFileName]⟩
    .ok (if (tree.file? path).isSome then some path else none)

/-- The settings of the configuration file at a path; without a file, the defaults. -/
def settingsAt (tree : FileTree) (path : Option FilePath) : Except CommandError Settings :=
  match path with
  | none => .ok .defaults
  | some path =>
    match tree.file? path with
    | none => .ok .defaults
    | some content => (Settings.ofFile path.text content).mapError .config

/-- The directory of the templates. -/
def templateRoot (given : Option String) (config : Option FilePath) (s : Settings) : FilePath :=
  match given, config with
  | some text, _ => .ofText text
  | none, some path => path.parent.join (.ofText s.templateRoot)
  | none, none => .ofText s.templateRoot

/-- An engine for the templates in a directory. -/
def engineAt (tree : FileTree) (root : FilePath) (s : Settings) :
    Except Glob.PatternError Engine := do
  return .new s (tree.loader root (← Glob.rules s.exclude))

/-- The engine that a command line asks for. -/
def Invocation.engine (tree : FileTree) (i : Invocation) : Except CommandError Engine := do
  let config ← configPath tree i.config
  let settings ← settingsAt tree config
  let root := templateRoot i.root config settings
  if tree.isDirectory root then (engineAt tree root settings).mapError .pattern
  else throw (.noRoot root.text)

/-! ## Running -/

/-- A variable with its value. -/
def variableOf (text : String) : Except CommandError (String × Value) :=
  match splitEquals text.toList with
  | ("", _) => .error (.badVariable text)
  | (_, none) => .error (.badVariable text)
  | (key, some value) => .ok (key, .str value)

/-- Runs a command; the answer is its output. -/
def Invocation.run (tree : FileTree) (i : Invocation) : Except CommandError String := do
  let engine ← i.engine tree
  match i.action with
  | .render definitions =>
    let data ← definitions.mapM variableOf
    (engine.render i.name data.reverse).1.mapError .failure
  | .dump trace =>
    let template ← (engine.template i.name none true).1.mapError .failure
    return if trace then template.trace ++ "\n" else template.canonical

/-! ## Outcomes -/

/-- What a command leaves behind. -/
structure Outcome where
  exitCode : Nat
  output : String
  errors : String
  deriving Repr, DecidableEq

/-- A failure that no author of templates can mend; it is not reported like the others. -/
def Failure.isInternal : Failure → Bool
  | defect _ => true
  | arithmetic _ => true
  | _ => false

/-- The outcome of a run. An internal failure has none. -/
def outcome : Except CommandError String → Except Failure Outcome
  | .ok output => .ok ⟨0, output, ""⟩
  | .error (.failure e) =>
    if e.isInternal then .error e else .ok ⟨2, "", trimEnd e.report ++ "\n"⟩
  | .error e => .ok ⟨2, "", trimEnd e.report ++ "\n"⟩

/-- A command that succeeds reports no errors. -/
theorem outcome_ok (output : String) : outcome (.ok output) = .ok ⟨0, output, ""⟩ := rfl

/-- How the command line is used. -/
def usageText : String :=
  "usage: ftl [-h] [-v] [--verbose] render [--root DIR] [--config FILE] [--var KEY=VALUE] NAME\n" ++
    "       ftl [-h] [-v] [--verbose] dump [--root DIR] [--config FILE] [--trace] NAME\n"

/-- The outcome of a command line that asks for nothing to be done. -/
def Stop.outcome : Stop → Outcome
  | usage => ⟨2, "", usageText⟩
  | help => ⟨0, usageText, ""⟩
  | version => ⟨0, "ftl 0.1.0\n", ""⟩

end Stencil

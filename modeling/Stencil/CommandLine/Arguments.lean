/-!
# Arguments of the command line

The arguments are words. A word that begins with a hyphen is an option, unless it is a hyphen
alone, a number or has a blank in it; the name of an option may be cut short as long as it stays
clear, and its value may follow an equals sign or be the next word. Behind a word of two hyphens
every word is a value.

## Main definitions

* `OptionSpec` is an option that a command knows, `Word` what a word is to a command.
* `readCommand` reads the words behind the name of a command.
* `Invocation.ofArguments` reads a whole command line.

## Main results

* `classify_of_plain`: a word without a hyphen in front is a value.
-/

namespace Stencil

/-- An option that a command knows. -/
structure OptionSpec where
  name : String
  takesValue : Bool
  deriving Repr, DecidableEq

/-- Why a command line asks for nothing to be done. -/
inductive Stop
  /-- It is not understood. -/
  | usage
  /-- It asks for help. -/
  | help
  /-- It asks for the version. -/
  | version
  deriving Repr, DecidableEq

/-- What a word is to a command. -/
inductive Word
  | value
  /-- An option, with what stands behind the equals sign. -/
  | option (spec : OptionSpec) (attached : Option String)
  /-- An option that the command does not know. -/
  | unknown
  /-- A name that several options begin with, or an option written in a way that no option is. -/
  | unclear
  deriving Repr, DecidableEq

/-! ## Words -/

/-- A negative number. -/
def isNegativeNumber (s : List Char) : Bool :=
  match s with
  | '-' :: rest =>
    let fraction := rest.dropWhile Char.isDigit
    match fraction with
    | [] => !rest.isEmpty
    | '.' :: digits => !digits.isEmpty && digits.all Char.isDigit
    | _ => false
  | _ => false

/-- The part of a word before its first equals sign, and the part behind it. -/
def splitEquals (s : List Char) : String × Option String :=
  (String.ofList (s.takeWhile (· ≠ '=')),
    match s.dropWhile (· ≠ '=') with
    | _ :: rest => some (String.ofList rest)
    | [] => none)

/-- A word that names no known option and begins none: a value if it looks like one. -/
def unnamed (s : List Char) : Word :=
  if isNegativeNumber s || s.contains ' ' then .value else .unknown

/-- The options that a word with two hyphens in front may name: the one of just this name, or else
all that begin so. -/
def candidates (specs : List OptionSpec) (name : String) : List OptionSpec :=
  match specs.find? (·.name = name) with
  | some spec => [spec]
  | none => specs.filter fun spec => name.toList.isPrefixOf spec.name.toList

/-- The option whose name is a hyphen and a letter; no such option takes a value. -/
def letterOption? (specs : List OptionSpec) (c : Char) : Option OptionSpec :=
  specs.find? (·.name = String.ofList ['-', c])

/-- What a word is to a command that knows some options. Options of one letter may share a hyphen:
since each of them ends the reading, only the first one counts. -/
def classify (specs : List OptionSpec) (word : String) : Word :=
  match word.toList with
  | '-' :: '-' :: rest =>
    let (name, attached) := splitEquals ('-' :: '-' :: rest)
    match candidates specs name with
    | [spec] => .option spec attached
    | [] => unnamed ('-' :: '-' :: rest)
    | _ => .unclear
  | ['-'] => .value
  | '-' :: c :: rest =>
    match letterOption? specs c with
    | some spec =>
      if rest.all fun d => (letterOption? specs d).isSome then .option spec none else .unclear
    | none => unnamed ('-' :: c :: rest)
  | _ => .value

/-- A word without a hyphen in front is a value. -/
theorem classify_of_plain (specs : List OptionSpec) {word : String} {c : Char} {rest : List Char}
    (hword : word.toList = c :: rest) (hc : c ≠ '-') : classify specs word = .value := by
  unfold classify
  rw [hword]
  split <;> simp_all

/-! ## The words of a command -/

/-- What the words of a command have said so far. -/
structure Given where
  /-- The values, the last one first. -/
  values : List String
  /-- The options with their values, the last one first. -/
  options : List (String × String)
  /-- Whether there was an option that the command does not know. -/
  unknown : Bool
  deriving Repr, DecidableEq

/-- One more option with its value. -/
def Given.addOption (given : Given) (spec : OptionSpec) (value : String) : Given :=
  { given with options := (spec.name, value) :: given.options }

/-- Reads the words of a command; `due` is an option whose value comes next. -/
def readWords (specs : List OptionSpec) (given : Given) (due : Option OptionSpec) :
    List String → Except Stop Given
  | [] => if due.isSome then .error .usage else .ok given
  | word :: rest =>
    match due with
    | some spec =>
      if word ≠ "--" && classify specs word = .value then
        readWords specs (given.addOption spec word) none rest
      else .error .usage
    | none =>
      if word = "--" then .ok { given with values := rest.reverse ++ given.values }
      else
        match classify specs word with
        | .value => readWords specs { given with values := word :: given.values } none rest
        | .unknown => readWords specs { given with unknown := true } none rest
        | .unclear => .error .usage
        | .option spec none =>
          if spec.takesValue then readWords specs given (some spec) rest
          else if spec.name = "-h" || spec.name = "--help" then .error .help
          else readWords specs (given.addOption spec "") none rest
        | .option spec (some value) =>
          if spec.takesValue then readWords specs (given.addOption spec value) none rest
          else .error .usage

/-- The options of every command that ask for help. -/
def helpOptions : List OptionSpec := [⟨"-h", false⟩, ⟨"--help", false⟩]

/-- The options that every command knows. -/
def commonOptions : List OptionSpec := helpOptions ++ [⟨"--root", true⟩, ⟨"--config", true⟩]

/-! ## The command line -/

/-- What is to be done with a template. -/
inductive Action
  /-- To render it with variables, each written `KEY=VALUE`. -/
  | render (definitions : List String)
  /-- To print it, in trace form or else in canonical form. -/
  | dump (trace : Bool)
  deriving Repr, DecidableEq

/-- What a command line asks for. -/
structure Invocation where
  /-- Whether to report what is being done. -/
  verbose : Bool
  /-- The name of the template. -/
  name : String
  root : Option String
  config : Option String
  action : Action
  deriving Repr, DecidableEq

/-- A text that is not empty. -/
def nonempty (s : String) : Option String :=
  if s = "" then none else some s

/-- The invocation that the words of a command give. -/
def invocation (verbose : Bool) (given : Given) (action : Action) : Except Stop Invocation :=
  match given.values, given.unknown with
  | [name], false =>
    .ok
      { verbose, name, action
        root := (given.options.lookup "--root").bind nonempty
        config := (given.options.lookup "--config").bind nonempty }
  | _, _ => .error .usage

/-- Reads the words behind the name of a command. -/
def readCommand (verbose unknown : Bool) (command : String) (words : List String) :
    Except Stop Invocation :=
  match command with
  | "render" => do
    let given ← readWords (commonOptions ++ [⟨"--var", true⟩]) ⟨[], [], unknown⟩ none words
    invocation verbose given
      (.render ((given.options.filter (·.1 = "--var")).map (·.2)).reverse)
  | "dump" => do
    let given ← readWords (commonOptions ++ [⟨"--trace", false⟩]) ⟨[], [], unknown⟩ none words
    invocation verbose given (.dump (given.options.lookup "--trace").isSome)
  | _ => .error .usage

/-- The options that stand before the name of a command. -/
def mainOptions : List OptionSpec :=
  helpOptions ++ [⟨"-v", false⟩, ⟨"--version", false⟩, ⟨"--verbose", false⟩]

/-- Reads the words up to the name of a command, and the command. -/
def readMain (verbose unknown : Bool) : List String → Except Stop Invocation
  | [] => .error .usage
  | word :: rest =>
    match if word = "--" then .unclear else classify mainOptions word with
    | .value => readCommand verbose unknown word rest
    | .unknown => readMain verbose true rest
    | .unclear => .error .usage
    | .option spec attached =>
      if attached.isSome then .error .usage
      else if spec.name = "--verbose" then readMain true unknown rest
      else if spec.name = "-v" || spec.name = "--version" then .error .version
      else .error .help

/-- What a command line asks for. A word that several of the options before a command begin with
is not understood anywhere in it. -/
def Invocation.ofArguments (words : List String) : Except Stop Invocation :=
  if (words.takeWhile (· ≠ "--")).any fun w => classify mainOptions w = .unclear then
    .error .usage
  else readMain false false words

end Stencil

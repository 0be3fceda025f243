import Stencil.Charset
import Stencil.Error.Parsing

/-!
# Failures

Everything that can go wrong between the request for a template and its output, as causes. Each
kind has one wording.

## Main definitions

* `LoadError` is a template that cannot be loaded.
* `RunError` is an error of a template that runs; it carries the trace of the elements that were
  running.
* `Defect` is an error of the engine's own making.
* `Failure` is any of these.
-/

namespace Stencil

/-- Why a template cannot be loaded. -/
inductive LoadReason
  /-- No source has the name; a remark may say more. -/
  | notFound (remark : String)
  /-- The source cannot be read. -/
  | unreadable (detail : String)
  /-- No charset has the name of the encoding. -/
  | unknownEncoding (encoding : String)
  /-- The bytes of the source are no text in the encoding. -/
  | undecodable (encoding : String) (e : DecodeError)
  /-- The text of the source is no template. -/
  | unparsable (e : ParseError)
  /-- Anything else. -/
  | other (detail : String)
  deriving Repr, DecidableEq

/-- The detail of a reason, where the template exists or may exist. -/
def LoadReason.detail : LoadReason → String
  | notFound remark => remark
  | unreadable detail => "I/O error: " ++ detail
  | unknownEncoding encoding => "Unknown encoding " ++ display encoding
  | undecodable encoding e => "Cannot decode as " ++ encoding ++ ": " ++ e.message
  | unparsable e => e.text
  | other detail => detail

/-- A template that cannot be loaded, by its normalized name. -/
structure LoadError where
  name : String
  reason : LoadReason
  deriving Repr, DecidableEq

/-- The wording of a loading error. -/
def LoadError.text (e : LoadError) : String :=
  match e.reason with
  | .notFound remark =>
    "Template not found for name " ++ quote e.name ++ "." ++
      if remark = "" then "" else "\nReason given: " ++ remark
  | reason =>
    "Failed to load template " ++ quote e.name ++
      if reason.detail = "" then "" else ": " ++ reason.detail

/-- An error of a template that runs. -/
inductive RunError
  | value (e : ValueError)
  /-- A name that breaks the rules for names. -/
  | malformedName (name defect : String)
  /-- The target of an inclusion cannot be loaded; the name is the one the template gave. -/
  | inclusion (name : String) (cause : Option LoadError)
  /-- Inclusions are nested more deeply than allowed; the chain leads from the main template to
  the refused one. -/
  | tooDeep (limit : Int) (chain : List String)
  deriving Repr, DecidableEq

/-- The wording of an error of a running template. -/
def RunError.text : RunError → String
  | value e => e.message
  | malformedName name defect => "Malformed template name " ++ quote name ++ ":\n" ++ defect
  | inclusion name cause =>
    "Template inclusion failed (for parameter value " ++ quote name ++ "):\n" ++
      match cause with
      | some e => e.text
      | none => "unknown reason"
  | tooDeep limit chain =>
    "Template inclusion nested deeper than " ++ toString limit ++ " levels" ++
      if chain.isEmpty then "" else ": " ++ " -> ".intercalate chain

/-- An error of the engine's own making. -/
inductive Defect
  /-- A variable was met where there are no variables. -/
  | noVariables (name : String)
  /-- A literal expression has no value. -/
  | literal (expression : String) (cause : ValueError)
  deriving Repr, DecidableEq

/-- The wording of a defect. -/
def Defect.text : Defect → String
  | noVariables name => "Variable " ++ display name ++ " evaluated without an environment"
  | literal expression cause =>
    "Evaluation of literal expression " ++ expression ++ " failed: " ++ cause.message

/-- Anything that can go wrong. -/
inductive Failure
  /-- An error of a running template, with the trace of the elements that were running. -/
  | run (e : RunError) (trace : Option (List String))
  | parse (e : ParseError)
  | load (e : LoadError)
  /-- A configuration that is not accepted. -/
  | config (message : String)
  | defect (e : Defect)
  | arithmetic (e : ArithmeticError)
  /-- The name of a charset contains the character NUL. -/
  | nulInCharset
  deriving Repr, DecidableEq

namespace Failure

/-- The wording of the errors of arithmetic. -/
def arithmeticText : ArithmeticError → String
  | .mixedKinds => "a binary number and a decimal have no sum"
  | .integerTooLarge => "int too large to convert to float"
  | .decimalOverflow => "decimal overflow"
  | .invalidOperation => "invalid decimal operation"

/-- The wording of a failure. -/
def text : Failure → String
  | run e _ => e.text
  | parse e => e.text
  | load e => e.text
  | config message => message
  | defect e => e.text
  | arithmetic e => arithmeticText e
  | nulInCharset => "embedded null character"

/-- A text followed by a trace, unless the trace is absent or empty. -/
def withTrace (text : String) : Option (List String) → String
  | none => text
  | some [] => text
  | some lines =>
    text ++ "\n\nFTL stack trace (\"~\" means nesting-related):\n" ++ "\n".intercalate lines

/-- The wording of a failure with the trace it carries. -/
def report : Failure → String
  | run e trace => withTrace e.text trace
  | e => e.text

/-- An error of evaluation as a failure, before any trace is known. -/
def ofEval : EvalError → Failure
  | .value e => run (.value e) none
  | .arithmetic e => arithmetic e
  | .noVariables name => defect (.noVariables name)

/-- Attaches a trace to an error of a running template that has none yet. -/
def traced (lines : List String) : Failure → Failure
  | run e none => run e (some lines)
  | e => e

end Failure

end Stencil

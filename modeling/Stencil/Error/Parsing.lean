import Stencil.Error.Evaluation
import Stencil.Expr.Token
import Stencil.Text.Cursor
import Stencil.Text.Display

/-!
# Errors of parsing

Why the source of a template is not a template: an issue, the place where it was found and the
name of the template. Literal values of attributes are checked while a template is parsed, so a
refused one is an issue too.

## Main definitions

* `ParseIssue` is what is wrong, `ParseError` says also where.
* `ParseError.text` is the wording of an error.
-/

namespace Stencil

/-- The attributes of an inclusion. -/
inductive IncludeAttribute
  | encoding
  | parse
  | ignoreMissing
  deriving Repr, DecidableEq

namespace IncludeAttribute

/-- The name of an attribute in a tag. -/
def name : IncludeAttribute → String
  | encoding => "encoding"
  | parse => "parse"
  | ignoreMissing => "ignore_missing"

/-- The attributes in the order in which messages and tags list them. -/
def all : List IncludeAttribute := [encoding, parse, ignoreMissing]

/-- The attribute of a name. -/
def ofName? (name : String) : Option IncludeAttribute :=
  all.find? (·.name = name)

end IncludeAttribute

/-- Why the literal value of an attribute is refused. -/
inductive AttributeFault
  /-- The encoding is no string. -/
  | encoding
  /-- The string for `parse` is none of the accepted words. -/
  | parseWord (cause : ValueError)
  /-- The value of `parse` is neither a boolean nor a string. -/
  | parse (cause : ValueError)
  /-- The value of `ignore_missing` is no boolean. -/
  | ignoreMissing (cause : ValueError)
  deriving Repr, DecidableEq

namespace AttributeFault

/-- The wording of a fault. -/
def message : AttributeFault → String
  | encoding => "Expected a string as the value of the \"encoding\" argument"
  | parseWord _ => "Invalid legacy value of the \"parse\" attribute"
  | parse _ => "Expected a boolean or string as the value of the \"parse\" attribute"
  | ignoreMissing _ => "Expected a boolean as the value of the \"ignore_missing\" attribute"

/-- The error that the value itself gave. -/
def cause? : AttributeFault → Option ValueError
  | encoding => none
  | parseWord e => some e
  | parse e => some e
  | ignoreMissing e => some e

end AttributeFault

/-- What keeps a source from being a template. -/
inductive ParseIssue
  | expression (e : ExprError)
  | unclosedComment
  | unclosedInterpolation
  | missingDirectiveName
  | unclosedTag (name : String)
  | missingEndTagName
  | unclosedEndTag (name : String)
  /-- An end tag that ends nothing. -/
  | strayEndTag (name : String)
  /-- An `else` outside the first branch of a conditional. -/
  | strayElse
  | elseWithParameters
  | selfClosingConditional
  | unclosedConditional
  | unknownDirective (name : String)
  | missingExpression
  /-- A token behind the expression that fills a tag. -/
  | trailingToken (text : String)
  | missingTarget
  /-- A token where an attribute of an inclusion is due. -/
  | includeToken (text : String)
  | unsupportedParameter (name : String)
  | duplicateParameter (name : String)
  /-- An assignment that does not begin with a name and an equals sign. -/
  | assignmentForm (directive : String)
  /-- A token behind the expression of an assignment. -/
  | assignmentToken (text directive : String)
  /-- A literal attribute with a value of the wrong kind. -/
  | refusedAttribute (fault : AttributeFault) (expression : String)
  deriving Repr, DecidableEq

namespace ParseIssue

/-- The wording of an issue. -/
def message : ParseIssue → String
  | expression e => e.message
  | unclosedComment => "Unclosed comment"
  | unclosedInterpolation => "Unclosed interpolation, expected '\x7d'"
  | missingDirectiveName => "Expected a directive name after '<#'"
  | unclosedTag name => "Unclosed #" ++ name ++ " tag, expected '>' or '/>'"
  | missingEndTagName => "Expected a directive name after '</#'"
  | unclosedEndTag name => "Unclosed end tag </#" ++ name
  | strayEndTag name => "Unexpected end tag </#" ++ name ++ ">"
  | strayElse => "#else without a matching #if"
  | elseWithParameters => "#else takes no parameters"
  | selfClosingConditional => "#if must not be self-closing"
  | unclosedConditional => "Unclosed #if, expected </#if>"
  | unknownDirective name => "Unknown directive: #" ++ name
  | missingExpression => "Expected an expression"
  | trailingToken text => "Unexpected token '" ++ text ++ "'"
  | missingTarget => "#include requires a template name"
  | includeToken text => "Unexpected token '" ++ text ++ "' in #include"
  | unsupportedParameter name =>
    "Unsupported #include parameter " ++ display name ++ ". Supported parameters are: " ++
      ", ".intercalate (IncludeAttribute.all.map (·.name))
  | duplicateParameter name => "Duplicate #include parameter " ++ display name
  | assignmentForm directive => "Expected 'name = value' in #" ++ directive
  | assignmentToken text directive => "Unexpected token '" ++ text ++ "' in #" ++ directive
  | refusedAttribute fault _ => fault.message

end ParseIssue

/-- An issue and where it was found. -/
structure ParseError where
  issue : ParseIssue
  place : Place
  /-- The name of the template; empty when it has none. -/
  template : String
  deriving Repr, DecidableEq

namespace ParseError

/-- A message with the name of the template and the place, as far as they are known. -/
def located (message template : String) (place : Place) : String :=
  message ++ (if template = "" then "" else " in template " ++ quote template) ++
    if place.line = 0 then ""
    else " at line " ++ toString place.line ++ ", column " ++ toString place.column

/-- A message with the expression that failed and what made it fail, as far as they are known. -/
def explained (message expression : String) (cause : Option String) : String :=
  message ++ (if expression = "" then "" else "\nThe failing expression: " ++ expression) ++
    match cause with
    | some text => "\nCaused by: " ++ text
    | none => ""

/-- The wording of an error. -/
def text (e : ParseError) : String :=
  let message := located e.issue.message e.template e.place
  match e.issue with
  | .refusedAttribute fault expression =>
    explained message expression (fault.cause?.map (·.message))
  | _ => message

end ParseError

end Stencil

import Stencil.Expr.Parser
import Stencil.Template.Element
import Stencil.Template.Piece

/-!
# From pieces to elements

The pieces of a source become elements in one pass. Conditionals that are still open are kept on a
stack, innermost first, each with the elements before it and, behind its `else`, its finished first
branch; an end tag closes the innermost one.

## Main definitions

* `OpenConditional` is a conditional whose end tag has not been met.
* `Piece.part` says what a piece is to the elements around it.
* `build` turns pieces into elements, `parseTemplate` a whole source.
* `readAttributes` reads the attributes of an inclusion.
-/

namespace Stencil

/-- What parsing a tag may end in: an issue at its place, or a failure of its own. -/
abbrev TagResult (α : Type) := Except (ParseIssue ⊕ Failure) α

/-! ## Insides of tags -/

/-- Reads one expression from the tokens of a tag. -/
def readTagExpr (all tokens : List Token) :
    TagResult { r : Expr × List Token // r.2.length < tokens.length } :=
  match h : Expr.read all tokens with
  | .ok r => .ok ⟨r, Expr.read_rest_length h⟩
  | .error e => .error (.inl (.expression e))

/-- The kind and the text of the token at the front; behind the last token, those of the end. -/
def front : List Token → TokenKind × String
  | t :: _ => (t.kind, t.text)
  | [] => (.eof, "")

/-- A tag whose inside is one expression. -/
def wholeExpression (tokens : List Token) : TagResult Expr := do
  if (front tokens).1 = .eof then throw (.inl .missingExpression)
  let ⟨(e, rest), _⟩ ← readTagExpr tokens tokens
  if (front rest).1 = .eof then return e else throw (.inl (.trailingToken (front rest).2))

/-- The inside of an assignment: a name, an equals sign and an expression. -/
def assignment (directive : String) (tokens : List Token) : TagResult (String × Expr) :=
  match tokens with
  | name :: sign :: value => do
    if name.kind = .identifier && sign.isOperator "=" then
      let ⟨(e, rest), _⟩ ← readTagExpr tokens value
      if (front rest).1 = .eof then return (name.text, e)
      else throw (.inl (.assignmentToken (front rest).2 directive))
    else throw (.inl (.assignmentForm directive))
  | _ => throw (.inl (.assignmentForm directive))

/-- The attributes of an inclusion, which come in any order and each at most once; `given` holds
those already read. -/
def readAttributes (all : List Token) (given : List (IncludeAttribute × Expr)) :
    List Token → TagResult (List (IncludeAttribute × Expr))
  | [] => .ok given
  | name :: tokens =>
    if name.kind = .eof then .ok given
    else
      match tokens with
      | [] => throw (.inl (.includeToken name.text))
      | sign :: value =>
        if name.kind = .identifier && sign.isOperator "=" then
          match IncludeAttribute.ofName? name.text with
          | none => throw (.inl (.unsupportedParameter name.text))
          | some a =>
            if (given.lookup a).isSome then throw (.inl (.duplicateParameter name.text))
            else
              match readTagExpr all value with
              | .ok ⟨(e, rest), _⟩ => readAttributes all (given ++ [(a, e)]) rest
              | .error e => .error e
        else throw (.inl (.includeToken name.text))
termination_by tokens => tokens.length
decreasing_by simp_all only [List.length_cons]; omega

/-- An attribute that cannot be folded as the end of parsing. -/
def ofFoldError : FoldError → ParseIssue ⊕ Failure
  | .refused fault e => .inl (.refusedAttribute fault e.canonical)
  | .failed e (.value cause) => .inr (.defect (.literal e.canonical cause))
  | .failed _ (.arithmetic cause) => .inr (.arithmetic cause)
  | .failed _ (.noVariables name) => .inr (.defect (.noVariables name))

/-- The inside of an inclusion: its target and its attributes. -/
def inclusionOf (tokens : List Token) : TagResult Inclusion := do
  if (front tokens).1 = .eof then throw (.inl .missingTarget)
  let ⟨(target, rest), _⟩ ← readTagExpr tokens tokens
  let given ← readAttributes tokens [] rest
  (Inclusion.fold target (given.lookup .encoding) (given.lookup .parse)
    (given.lookup .ignoreMissing)).mapError ofFoldError

/-! ## Blocks -/

/-- A conditional whose end tag has not been met. -/
structure OpenConditional where
  place : Place
  condition : Expr
  /-- The elements before it, the last one first. -/
  before : List Element
  /-- The first branch, once the `else` behind it has been met. -/
  body : Option (List Element)

namespace OpenConditional

/-- The conditional whose last branch is `branch`. -/
def close (f : OpenConditional) (branch : List Element) : Element :=
  match f.body with
  | none => .conditional f.place f.condition branch none
  | some body => .conditional f.place f.condition body (some branch)

end OpenConditional

/-- What a piece is to the elements around it. -/
inductive Part
  /-- An element by itself. -/
  | leaf (element : TagResult Element)
  /-- The beginning of a conditional. -/
  | opening (condition : TagResult Expr)
  /-- The beginning of the second branch of a conditional; it must not have parameters. -/
  | divider (hasParameters : Bool)
  /-- The end of a conditional, if the tag has its name. -/
  | closing (name : String)

/-- The part that a directive plays. -/
def directivePart (place : Place) (name : String) (tokens : List Token) (selfClosing : Bool) :
    Part :=
  match name with
  | "include" => .leaf ((inclusionOf tokens).map (.inclusion place))
  | "if" =>
    .opening (if selfClosing then .error (.inl .selfClosingConditional) else wholeExpression tokens)
  | "assign" =>
    .leaf ((assignment name tokens).map fun a => .assign place .template a.1 a.2)
  | "global" => .leaf ((assignment name tokens).map fun a => .assign place .render a.1 a.2)
  | "else" => .divider (tokens.length > 1)
  | _ => .leaf (.error (.inl (.unknownDirective name)))

/-- The part that a piece plays. -/
def Piece.part (p : Piece) : Part :=
  match p.kind with
  | .text s => .leaf (.ok (.text p.place s))
  | .interpolation tokens => .leaf ((wholeExpression tokens).map (.interpolation p.place))
  | .directive name tokens selfClosing => directivePart p.place name tokens selfClosing
  | .endTag name => .closing name

/-- Where a failure to parse lies. -/
abbrev Located := (ParseIssue × Place) ⊕ Failure

/-- Puts the end of parsing a tag at the place of the tag. -/
def atPlace (place : Place) : ParseIssue ⊕ Failure → Located
  | .inl issue => .inl (issue, place)
  | .inr failure => .inr failure

/-- Turns pieces into elements, inside the open conditionals `stack`; `done` holds the elements
before the pieces in the innermost branch, the last one first. -/
def build : List OpenConditional → List Element → List Piece → Except Located (List Element)
  | [], done, [] => .ok done.reverse
  | f :: _, _, [] => .error (.inl (.unclosedConditional, f.place))
  | stack, done, p :: ps =>
    match p.part with
    | .leaf (.ok e) => build stack (e :: done) ps
    | .leaf (.error e) => .error (atPlace p.place e)
    | .opening (.ok condition) => build (⟨p.place, condition, done, none⟩ :: stack) [] ps
    | .opening (.error e) => .error (atPlace p.place e)
    | .divider hasParameters =>
      match stack with
      | ⟨place, condition, before, none⟩ :: outer =>
        if hasParameters then .error (.inl (.elseWithParameters, p.place))
        else build (⟨place, condition, before, some done.reverse⟩ :: outer) [] ps
      | _ => .error (.inl (.strayElse, p.place))
    | .closing name =>
      match stack with
      | f :: outer =>
        if name = "if" then build outer (f.close done.reverse :: f.before) ps
        else .error (.inl (.strayEndTag name, p.place))
      | [] => .error (.inl (.strayEndTag name, p.place))

/-- The pieces of a source and the place where it ends. -/
def piecesOf (source : String) : Except (ParseIssue × Place) (List Piece × Cursor) :=
  pieces .start source.toList

/-- The elements of the template with the given source. Errors name the template. -/
def parseTemplate (source : String) (name : String) : Except Failure (List Element) :=
  match piecesOf source with
  | .error (issue, place) => .error (.parse ⟨issue, place, name⟩)
  | .ok (ps, _) =>
    match build [] [] ps with
    | .ok root => .ok root
    | .error (.inl (issue, place)) => .error (.parse ⟨issue, place, name⟩)
    | .error (.inr failure) => .error failure

end Stencil

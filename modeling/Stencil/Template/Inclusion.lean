import Stencil.Error
import Stencil.Expr.Eval
import Stencil.Flag

/-!
# Inclusions and their attributes

An inclusion names its target by an expression, which is always evaluated at render time, and may
have three attributes. An attribute that is not written has a default; one written as a literal
expression is *folded*: its value is computed and checked while the template is parsed; any other
one is *deferred* to the time of rendering.

## Main definitions

* `Attr` is an attribute in one of the three states.
* `Inclusion` is an inclusion, `Inclusion.fold` builds one from the expressions of its tag.
* `parseFlagOf` is the value of the attribute `parse`, which may be a yes-and-no word.

## Main results

* `Attr.expression_fold`: folding keeps the expression that was written.
-/

namespace Stencil

/-- An attribute: not written, computed while parsing, or left to the time of rendering. -/
inductive Attr (α : Type)
  | default (value : α)
  | folded (value : α) (expression : Expr)
  | deferred (expression : Expr)
  deriving Repr, DecidableEq

/-- The expression of an attribute, if it was written. -/
def Attr.expression {α : Type} : Attr α → Option Expr
  | default _ => none
  | folded _ e => some e
  | deferred e => some e

/-- An inclusion of another template. -/
structure Inclusion where
  /-- The name of the target, relative to the including template. -/
  target : Expr
  /-- The charset of the target; none stands for the default one. -/
  encoding : Attr (Option String)
  /-- Whether the target is a template, or text to be written as it is. -/
  parse : Attr Bool
  /-- Whether a target that does not exist is passed over. -/
  ignoreMissing : Attr Bool
  deriving Repr, DecidableEq

/-- The value of the attribute `parse`: a string is read as a yes-and-no word, anything else must
be a boolean. -/
def parseFlagOf (e : Expr) (m : Model) : Except ValueError Bool :=
  match m.text with
  | some s =>
    match Flag.ofWord? s with
    | some b => .ok b
    | none => .error (.unknownWord s Flag.acceptedWords e.canonical)
  | none =>
    match m.flag with
    | some b => .ok b
    | none => .error (.notBoolean e.canonical m.typeName)

/-- Why an attribute cannot be folded. -/
inductive FoldError
  /-- Its value is of the wrong kind. -/
  | refused (fault : AttributeFault) (expression : Expr)
  /-- Its expression has no value. -/
  | failed (expression : Expr) (cause : EvalError)
  deriving Repr, DecidableEq

namespace Attr

/-- Folds an attribute if it is written as a literal expression. -/
def fold {α : Type} (fallback : α) (check : Expr → Model → Except AttributeFault α) :
    Option Expr → Except FoldError (Attr α)
  | none => .ok (.default fallback)
  | some e =>
    if e.isLiteral then
      match e.eval none with
      | .error cause => .error (.failed e cause)
      | .ok m =>
        match check e m with
        | .ok value => .ok (.folded value e)
        | .error fault => .error (.refused fault e)
    else .ok (.deferred e)

/-- Folding keeps the expression that was written. -/
theorem expression_fold {α : Type} {fallback : α}
    {check : Expr → Model → Except AttributeFault α} {written : Option Expr} {a : Attr α}
    (h : fold fallback check written = .ok a) : a.expression = written := by
  unfold fold at h
  split at h
  · cases h; rfl
  · split at h
    · split at h
      · cases h
      · split at h <;> cases h; rfl
    · cases h; rfl

end Attr

namespace Inclusion

/-- A folded encoding must be a string. -/
def checkEncoding (_ : Expr) (m : Model) : Except AttributeFault (Option String) :=
  match m.text with
  | some s => .ok (some s)
  | none => .error .encoding

/-- A folded `parse` must be a boolean or a yes-and-no word. -/
def checkParse (e : Expr) (m : Model) : Except AttributeFault Bool :=
  match parseFlagOf e m with
  | .ok b => .ok b
  | .error (.unknownWord s accepted text) => .error (.parseWord (.unknownWord s accepted text))
  | .error cause => .error (.parse cause)

/-- A folded `ignore_missing` must be a boolean. -/
def checkIgnoreMissing (e : Expr) (m : Model) : Except AttributeFault Bool :=
  match m.flag with
  | some b => .ok b
  | none => .error (.ignoreMissing (.notBoolean e.canonical m.typeName))

/-- The inclusion of a tag with the given expressions. The attributes are folded in the order
encoding, `parse`, `ignore_missing`. -/
def fold (target : Expr) (encoding parse ignoreMissing : Option Expr) :
    Except FoldError Inclusion := do
  let encoding ← Attr.fold none checkEncoding encoding
  let parse ← Attr.fold true checkParse parse
  let ignoreMissing ← Attr.fold false checkIgnoreMissing ignoreMissing
  return ⟨target, encoding, parse, ignoreMissing⟩

/-- The written attributes in the order in which tags list them. -/
def written (i : Inclusion) : List (IncludeAttribute × Expr) :=
  [(.encoding, i.encoding.expression), (.parse, i.parse.expression),
    (.ignoreMissing, i.ignoreMissing.expression)].filterMap fun a => a.2.map (a.1, ·)

end Inclusion

end Stencil

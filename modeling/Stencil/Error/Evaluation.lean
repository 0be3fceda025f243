import Stencil.Number
import Stencil.Text.Quoted

/-!
# Errors of evaluation

What can go wrong while an expression is evaluated. Most of it is a value that its place does not
accept, which the author of a template can mend; an error names the expression by its canonical
form.

## Main definitions

* `ValueError` is a value its place does not accept, or no value at all.
* `EvalError` adds what is no such error: arithmetic without a result, and a variable met where
  there are no variables.
-/

namespace Stencil

/-- A value that its place does not accept, or no value at all. -/
inductive ValueError
  /-- A variable without a value. -/
  | undefined (name : String)
  /-- A value that is no boolean. -/
  | notBoolean (expression actualType : String)
  /-- A value that is neither a string nor a number. -/
  | notText (expression actualType : String)
  /-- Two values that cannot be compared. -/
  | incomparable (leftType rightType expression : String)
  /-- A string that is none of the accepted yes-and-no words; the expression may be unknown. -/
  | unknownWord (value : String) (accepted : List String) (expression : String)
  deriving Repr, DecidableEq

namespace ValueError

/-- The wording of an error. -/
def message : ValueError → String
  | undefined name => "The following has evaluated to null or missing:\n==> " ++ name
  | notBoolean e t => "Expected a boolean, but this has evaluated to " ++ t ++ ":\n==> " ++ e
  | notText e t => "Expected a string or number, but this has evaluated to " ++ t ++ ":\n==> " ++ e
  | incomparable l r e =>
    "Can't compare values of these types. Left hand operand is " ++ l ++
      ", right hand operand is " ++ r ++ ":\n==> " ++ e
  | unknownWord value accepted e =>
    "Value must be boolean (or one of these strings: " ++
      ", ".intercalate (accepted.map quote) ++ "), but it was " ++ quote value ++ "." ++
      if e = "" then "" else "\nThe failing expression: " ++ e

end ValueError

/-- Why an expression has no value. -/
inductive EvalError
  | value (e : ValueError)
  | arithmetic (e : ArithmeticError)
  /-- A variable in a place where there are no variables. -/
  | noVariables (name : String)
  deriving Repr, DecidableEq

end Stencil

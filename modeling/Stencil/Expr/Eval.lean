import Stencil.Error.Evaluation
import Stencil.Expr
import Stencil.Model

/-!
# Evaluation of expressions

An expression is evaluated in a *scope*, which gives a model to each variable that has a value.
Without a scope only literal expressions have a value.

Numbers are added as numbers, anything else as text; a comparison needs two numbers, two strings or
two booleans, tried in that order. The second operand of `&&` and `||` is evaluated only where it
decides the result.

## Main definitions

* `Expr.eval` is the value of an expression.
* `Expr.flagOf` and `Expr.textOf` are the value as a boolean and as text, if it can be used so.
* `Expr.evalFlag` and `Expr.evalText` evaluate and convert at once.

## Main results

* `Expr.eval_binary_and` and `Expr.eval_binary_or` unfold the two lazy operators.
-/

namespace Stencil

/-- The variables in reach, if there are variables at all. -/
abbrev Scope := Option (String → Option Model)

namespace Expr

/-- The value of an expression as a boolean. -/
def flagOf (e : Expr) (m : Model) : Except EvalError Bool :=
  match m.flag with
  | some b => .ok b
  | none => .error (.value (.notBoolean e.canonical m.typeName))

/-- The value of an expression as text: a string stands for itself, a number is written. -/
def textOf (e : Expr) (m : Model) : Except EvalError String :=
  match m.text, m.number with
  | some s, _ => .ok s
  | none, some n => .ok n.text
  | none, none => .error (.value (.notText e.canonical m.typeName))

/-- Whether two models are equal, by the first capability that both have. -/
def equal? (l r : Model) : Option Bool :=
  match l.number, r.number with
  | some m, some n => some (m.same n)
  | _, _ =>
    match l.text, r.text with
    | some s, some t => some (s == t)
    | _, _ =>
      match l.flag, r.flag with
      | some b, some c => some (b == c)
      | _, _ => none

/-- Compares the values of the operands of `e`. -/
def compare (e : Expr) (l r : Model) : Except EvalError Bool :=
  match equal? l r with
  | some b => .ok b
  | none => .error (.value (.incomparable l.typeName r.typeName e.canonical))

/-- The sum of two numbers, or else the concatenation of two texts. -/
def sum (left right : Expr) (l r : Model) : Except EvalError Model :=
  match l.number, r.number with
  | some m, some n =>
    match m.add n with
    | .ok total => .ok (.ofNumber total)
    | .error e => .error (.arithmetic e)
  | _, _ => do
    let s ← left.textOf l
    let t ← right.textOf r
    return .ofText (s ++ t)

/-- The value of a variable. -/
def evalVar (scope : Scope) (name : String) : Except EvalError Model :=
  match scope with
  | none => .error (.noVariables name)
  | some bound =>
    match bound name with
    | some m => .ok m
    | none => .error (.value (.undefined name))

/-- The value of an expression. -/
def eval (scope : Scope) : Expr → Except EvalError Model
  | str value => .ok (.ofText value)
  | number value _ => .ok (.ofNumber value)
  | bool value => .ok (.ofBool value)
  | var name => evalVar scope name
  | group inner => inner.eval scope
  | not operand => do
    let m ← operand.eval scope
    return .ofBool !(← operand.flagOf m)
  | binary .and left right => do
    let l ← left.eval scope
    if ← left.flagOf l then
      let r ← right.eval scope
      return .ofBool (← right.flagOf r)
    else return .ofBool false
  | binary .or left right => do
    let l ← left.eval scope
    if ← left.flagOf l then return .ofBool true
    else
      let r ← right.eval scope
      return .ofBool (← right.flagOf r)
  | binary .eq left right => do
    let l ← left.eval scope
    let r ← right.eval scope
    return .ofBool (← compare (binary .eq left right) l r)
  | binary .ne left right => do
    let l ← left.eval scope
    let r ← right.eval scope
    return .ofBool !(← compare (binary .ne left right) l r)
  | binary .add left right => do
    let l ← left.eval scope
    let r ← right.eval scope
    sum left right l r

/-- The value of an expression as a boolean. -/
def evalFlag (scope : Scope) (e : Expr) : Except EvalError Bool := do
  e.flagOf (← e.eval scope)

/-- The value of an expression as text. -/
def evalText (scope : Scope) (e : Expr) : Except EvalError String := do
  e.textOf (← e.eval scope)

/-- A conjunction is its left operand when that is false, and else its right one. -/
theorem eval_binary_and (scope : Scope) (l r : Expr) :
    (binary .and l r).eval scope =
      (do if ← l.evalFlag scope then return .ofBool (← r.evalFlag scope)
          else return .ofBool false) := by
  simp only [eval, evalFlag, bind_assoc]

/-- A disjunction is its left operand when that is true, and else its right one. -/
theorem eval_binary_or (scope : Scope) (l r : Expr) :
    (binary .or l r).eval scope =
      (do if ← l.evalFlag scope then return .ofBool true
          else return .ofBool (← r.evalFlag scope)) := by
  simp only [eval, evalFlag, bind_assoc]

end Expr

end Stencil

import Stencil.Number
import Stencil.Text.Quoted

/-!
# Expressions

The expressions of templates: string, number and boolean literals, variables, groups in
parentheses, negation and six binary operators. Every expression has a *canonical form*, the source
text that denotes it, and is *literal* when no variable occurs in it.

## Main definitions

* `Expr` is the type of expressions, `BinaryOp` that of their operators.
* `Expr.canonical` is the canonical form.
* `Expr.isLiteral` says that no variable occurs.

## Main results

* `Expr.isLiteral_binary`: an operation is literal when its operands are.
-/

namespace Stencil

/-- The operators between two operands. -/
inductive BinaryOp
  | add
  | eq
  | ne
  | and
  | or
  deriving Repr, DecidableEq

/-- The sign of an operator. -/
def BinaryOp.symbol : BinaryOp → String
  | add => "+"
  | eq => "=="
  | ne => "!="
  | and => "&&"
  | or => "||"

/-- An expression. -/
inductive Expr
  | str (value : String)
  /-- A number, with the numeral that wrote it. -/
  | number (value : Number) (text : String)
  | bool (value : Bool)
  | var (name : String)
  /-- An expression in parentheses. -/
  | group (inner : Expr)
  | not (operand : Expr)
  | binary (op : BinaryOp) (left right : Expr)
  deriving Repr, DecidableEq

namespace Expr

/-- The source text that denotes an expression. -/
def canonical : Expr → String
  | str value => quote value
  | number _ text => text
  | bool value => if value then "true" else "false"
  | var name => name
  | group inner => "(" ++ inner.canonical ++ ")"
  | not operand => "!" ++ operand.canonical
  | binary op left right => left.canonical ++ " " ++ op.symbol ++ " " ++ right.canonical

/-- An expression is literal when its value cannot depend on variables. -/
def isLiteral : Expr → Bool
  | str _ => true
  | number _ _ => true
  | bool _ => true
  | var _ => false
  | group inner => inner.isLiteral
  | not operand => operand.isLiteral
  | binary _ left right => left.isLiteral && right.isLiteral

/-- An operation is literal exactly when both operands are. -/
theorem isLiteral_binary {op : BinaryOp} {l r : Expr} :
    (binary op l r).isLiteral = true ↔ l.isLiteral = true ∧ r.isLiteral = true := by
  simp [isLiteral]

end Expr

end Stencil

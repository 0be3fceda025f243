import Stencil.Expr.Eval

/-!
# What an evaluation reads

The value of an expression depends on the variables that occur in it, and on nothing else. A literal
expression has none, so that it has one value, or one error, in every scope and without one.

## Main definitions

* `Expr.Occurs` says that an expression is a part of another one, at whatever depth.
* `Expr.names` lists the variables that occur in an expression.

## Main results

* `Expr.eval_congr`: scopes that agree on the variables of an expression give it the same value.
* `Expr.mem_names_iff`: the variables that are listed are the parts that are variables.
* `Expr.isLiteral_iff_names_eq_nil`: an expression is literal when no variable occurs in it.
* `Expr.eval_of_isLiteral`: a literal expression has the same value in all scopes.
-/

namespace Stencil

namespace Expr

/-- The first expression is a part of the second one, or all of it. -/
inductive Occurs : Expr → Expr → Prop
  | self (e : Expr) : Occurs e e
  | group {e inner : Expr} (h : Occurs e inner) : Occurs e (.group inner)
  | not {e operand : Expr} (h : Occurs e operand) : Occurs e (.not operand)
  | left {op : BinaryOp} {e left right : Expr} (h : Occurs e left) :
      Occurs e (.binary op left right)
  | right {op : BinaryOp} {e left right : Expr} (h : Occurs e right) :
      Occurs e (.binary op left right)

/-- The variables that occur in an expression, from left to right. -/
def names : Expr → List String
  | str _ => []
  | number _ _ => []
  | bool _ => []
  | var name => [name]
  | group inner => inner.names
  | not operand => operand.names
  | binary _ left right => left.names ++ right.names

/-- **An evaluation reads the variables that occur in the expression**, and nothing else. -/
theorem eval_congr {s t : Scope} {e : Expr} (h : ∀ x ∈ e.names, evalVar s x = evalVar t x) :
    e.eval s = e.eval t := by
  induction e with
  | str | number | bool => rfl
  | var name => exact h name (List.mem_singleton_self name)
  | group inner ih => exact ih h
  | not operand ih => simp only [eval, ih h]
  | binary op left right ihl ihr =>
    have hleft := ihl fun x hx => h x (List.mem_append_left _ hx)
    have hright := ihr fun x hx => h x (List.mem_append_right _ hx)
    cases op <;> simp only [eval, hleft, hright]

/-- A variable is listed exactly when it is a part of the expression. -/
theorem mem_names_iff {x : String} {e : Expr} : x ∈ e.names ↔ Occurs (.var x) e := by
  constructor
  · intro h
    induction e with
    | str | number | bool => cases h
    | var name =>
      obtain rfl := List.mem_singleton.mp h
      exact .self _
    | group inner ih => exact .group (ih h)
    | not operand ih => exact .not (ih h)
    | binary op left right ihl ihr =>
      rcases List.mem_append.mp h with h | h
      · exact .left (ihl h)
      · exact .right (ihr h)
  · intro h
    generalize hv : var x = v at h
    induction h with
    | self =>
      subst hv
      exact List.mem_singleton_self x
    | group _ ih => exact ih hv
    | not _ ih => exact ih hv
    | left _ ih => exact List.mem_append_left _ (ih hv)
    | right _ ih => exact List.mem_append_right _ (ih hv)

theorem isLiteral_iff_names_eq_nil {e : Expr} : e.isLiteral = true ↔ e.names = [] := by
  induction e with
  | str | number | bool | var => simp [isLiteral, names]
  | group inner ih => exact ih
  | not operand ih => exact ih
  | binary op left right ihl ihr =>
    rw [isLiteral_binary, ihl, ihr, names, List.append_eq_nil_iff]

/-- A literal expression has the same value in all scopes, and without one. -/
theorem eval_of_isLiteral {e : Expr} (h : e.isLiteral = true) (s t : Scope) :
    e.eval s = e.eval t := by
  apply eval_congr
  rw [isLiteral_iff_names_eq_nil.mp h]
  exact List.forall_mem_nil _

end Expr

end Stencil

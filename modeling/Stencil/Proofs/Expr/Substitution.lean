import Stencil.Expr.Eval

/-!
# Substitution of variables

An expression in which variables are replaced by expressions evaluates as it would with the values of
these expressions bound to the variables. The two evaluations go through the same operations on the
same values, so that they also fail alike; but an error names the expression that went wrong, and that
shows the variable in the one and what stands for it in the other.

## Main definitions

* `Expr.replace` replaces all variables, `Expr.subst` one of them.
* `EvalError.nameless` is an error without the expression that it names.
* `SameOutcome` relates evaluations that have the same value, or fail alike.

## Main results

* `Expr.eval_replace`: evaluating behind a replacement is evaluating with the values bound.
-/

namespace Stencil

/-! ## Outcomes that differ in the wording of an error -/

/-- The error without the expression that it names. -/
def ValueError.nameless : ValueError → ValueError
  | undefined name => undefined name
  | notBoolean _ actualType => notBoolean "" actualType
  | notText _ actualType => notText "" actualType
  | incomparable leftType rightType _ => incomparable leftType rightType ""
  | unknownWord value accepted _ => unknownWord value accepted ""

/-- The error without the expression that it names. -/
def EvalError.nameless : EvalError → EvalError
  | value e => value e.nameless
  | arithmetic e => arithmetic e
  | noVariables name => noVariables name

section

variable {α β : Type}

/-- The same value, or the same error but for the expression that it names. -/
def SameOutcome (x y : Except EvalError α) : Prop :=
  x.mapError EvalError.nameless = y.mapError EvalError.nameless

theorem SameOutcome.refl (x : Except EvalError α) : SameOutcome x x := Eq.refl _

/-- What follows the same value goes on alike, and an error ends both sides. -/
theorem SameOutcome.bind {x y : Except EvalError α} {f g : α → Except EvalError β}
    (h : SameOutcome x y) (hf : ∀ a, SameOutcome (f a) (g a)) :
    SameOutcome (x >>= f) (y >>= g) := by
  cases x with
  | error d =>
    cases y with
    | error e => exact congrArg Except.error (Except.error.inj h)
    | ok b => cases h
  | ok a =>
    cases y with
    | error e => cases h
    | ok b =>
      cases h
      exact hf a

end

namespace Expr

/-! ## Conversions -/

section

variable (e f : Expr) (m : Model)

theorem sameOutcome_flagOf : SameOutcome (e.flagOf m) (f.flagOf m) := by
  unfold flagOf
  cases m.flag <;> rfl

theorem sameOutcome_textOf : SameOutcome (e.textOf m) (f.textOf m) := by
  unfold textOf
  cases m.text <;> cases m.number <;> rfl

theorem sameOutcome_compare (l r : Model) : SameOutcome (compare e l r) (compare f l r) := by
  unfold compare
  cases equal? l r <;> rfl

theorem sameOutcome_sum (e' f' : Expr) (l r : Model) :
    SameOutcome (sum e f l r) (sum e' f' l r) := by
  unfold sum
  split
  · exact .refl _
  · apply SameOutcome.bind (sameOutcome_textOf e e' l)
    intro s
    exact .bind (sameOutcome_textOf f f' r) fun t => .refl _

end

section

variable {s t : Scope} {e f : Expr}

theorem sameOutcome_evalFlag (h : SameOutcome (e.eval s) (f.eval t)) :
    SameOutcome (e.evalFlag s) (f.evalFlag t) :=
  h.bind (sameOutcome_flagOf e f)

theorem sameOutcome_evalText (h : SameOutcome (e.eval s) (f.eval t)) :
    SameOutcome (e.evalText s) (f.evalText t) :=
  h.bind (sameOutcome_textOf e f)

end

/-! ## Replacing variables -/

/-- The expression with each variable replaced by the expression that is given for it. -/
def replace (f : String → Expr) : Expr → Expr
  | str value => str value
  | number value text => number value text
  | bool value => bool value
  | var name => f name
  | group inner => group (inner.replace f)
  | not operand => not (operand.replace f)
  | binary op left right => binary op (left.replace f) (right.replace f)

/-- The expression with one variable replaced, wherever it occurs. -/
def subst (e : Expr) (x : String) (e₀ : Expr) : Expr :=
  e.replace fun y => if y = x then e₀ else .var y

/-- **Evaluating behind a replacement is evaluating with the values bound.** -/
theorem eval_replace {s t : Scope} {f : String → Expr} (h : ∀ y, evalVar t y = (f y).eval s)
    (e : Expr) : SameOutcome (e.eval t) ((e.replace f).eval s) := by
  induction e with
  | str value => exact .refl _
  | number value text => exact .refl _
  | bool value => exact .refl _
  | var name =>
    rw [eval, replace, h name]
    exact .refl _
  | group inner ih =>
    rw [eval, replace, eval]
    exact ih
  | not operand ih =>
    rw [eval, replace, eval]
    apply SameOutcome.bind ih
    intro m
    exact .bind (sameOutcome_flagOf _ _ m) fun b => .refl _
  | binary op left right ihl ihr =>
    have hleft := sameOutcome_evalFlag ihl
    have hright := sameOutcome_evalFlag ihr
    rw [replace]
    cases op with
    | and =>
      rw [eval_binary_and, eval_binary_and]
      apply SameOutcome.bind hleft
      intro b
      cases b with
      | true => exact .bind hright fun c => .refl _
      | false => exact .refl _
    | or =>
      rw [eval_binary_or, eval_binary_or]
      apply SameOutcome.bind hleft
      intro b
      cases b with
      | true => exact .refl _
      | false => exact .bind hright fun c => .refl _
    | eq | ne =>
      rw [eval, eval]
      apply SameOutcome.bind ihl
      intro l
      apply SameOutcome.bind ihr
      intro r
      exact .bind (sameOutcome_compare _ _ l r) fun b => .refl _
    | add =>
      rw [eval, eval]
      apply SameOutcome.bind ihl
      intro l
      exact .bind ihr fun r => sameOutcome_sum _ _ _ _ l r

/-- Where one variable has the value of an expression and all others are as they are elsewhere,
expressions evaluate as elsewhere with the variable replaced. -/
theorem eval_subst {s t : Scope} {x : String} {e₀ : Expr} (hx : evalVar t x = e₀.eval s)
    (hother : ∀ y, y ≠ x → evalVar t y = evalVar s y) (e : Expr) :
    SameOutcome (e.eval t) ((e.subst x e₀).eval s) := by
  apply eval_replace
  intro y
  by_cases hy : y = x
  · rw [if_pos hy, hy, hx]
  · rw [if_neg hy, eval, hother y hy]

end Expr

end Stencil

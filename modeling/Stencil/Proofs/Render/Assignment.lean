import Stencil.Proofs.Expr.Substitution
import Stencil.Proofs.Render.Scopes
import Stencil.Proofs.Render.Visit

/-!
# Assignments as substitution

An assignment evaluates its expression once and binds the value. Behind it an expression evaluates as it
did before with the expression written for the variable, wherever the variable occurs: also where that
expression reads the variable itself, since it reads the value from before, and where the variable was
bound before in whatever place.

## Main definitions

* `Substitutes` relates the states before and after an assignment.

## Main results

* `assignment_substitutes`: assignments are substitution.
-/

namespace Stencil

section

variable {job : Job} {s : RenderState} {x : String} {e₀ : Expr} {m : Model}

/-! ## What an assignment does -/

theorem visit_assign (p : Place) (scope : AssignScope)
    (hvalue : e₀.eval (some (s.value job)) = .ok m) :
    visit job [.assign p scope x e₀] s =
      (.ok (), match scope with
        | .template => s.setLocal x (some m)
        | .render => s.setGlobal x (some m)) := by
  rw [visit_singleton, runElement_of_budget rfl, Run.framed_apply]
  -- on the stack of running elements, variables have the values that they have below
  have hinside (e : Element) : Run.evaluate job (fun scope => e₀.eval scope) (s.enterElement e) =
      (.ok m, s.enterElement e) := by
    have hvalue' : e₀.eval (some ((s.enterElement e).value job)) = .ok m := hvalue
    rw [Run.evaluate_apply, hvalue']
    rfl
  cases scope with
  | template =>
    simp only [perform, Run.bind_apply, hinside, Run.change_apply, RenderState.setLocal_eq]
    rfl
  | render =>
    simp only [perform, Run.bind_apply, hinside]
    rfl

/-! ## Substitution -/

/-- In the state `t` expressions evaluate as in the state `s` with the expression written for the
variable: to a value, to a boolean and to text. -/
def Substitutes (job : Job) (x : String) (e₀ : Expr) (s t : RenderState) : Prop :=
  ∀ e : Expr,
    SameOutcome (e.eval (some (t.value job))) ((e.subst x e₀).eval (some (s.value job))) ∧
      SameOutcome (e.evalFlag (some (t.value job))) ((e.subst x e₀).evalFlag (some (s.value job))) ∧
      SameOutcome (e.evalText (some (t.value job))) ((e.subst x e₀).evalText (some (s.value job)))

/-- It is enough that the variable has the value of the expression, and all others the values that they
had. -/
theorem substitutes_of_value {t : RenderState} (hvalue : e₀.eval (some (s.value job)) = .ok m)
    (ht : ∀ y, t.value job y = if y = x then some m else s.value job y) :
    Substitutes job x e₀ s t := by
  have hx : Expr.evalVar (some (t.value job)) x = e₀.eval (some (s.value job)) := by
    simp only [Expr.evalVar, ht x, if_true, hvalue]
  have hother : ∀ y, y ≠ x →
      Expr.evalVar (some (t.value job)) y = Expr.evalVar (some (s.value job)) y := by
    intro y hy
    simp only [Expr.evalVar, ht y, if_neg hy]
  intro e
  have heval := Expr.eval_subst hx hother e
  exact ⟨heval, Expr.sameOutcome_evalFlag heval, Expr.sameOutcome_evalText heval⟩

end

/-- **Assignments are substitution.** Take an expression that has a value. The assignment of it to a
variable succeeds, and behind it every expression has the outcome that it has before with the expression
written for the variable: the same value, or the same error but for the expression that it names. So it
is with an assignment for the whole render if no local scope binds the variable; if one does, that
assignment changes the value of no variable. -/
theorem assignment_substitutes (job : Job) (s : RenderState) (p : Place) (x : String) (e₀ : Expr)
    (m : Model) (hvalue : e₀.eval (some (s.value job)) = .ok m) :
    (∃ t, visit job [.assign p .template x e₀] s = (.ok (), t) ∧ Substitutes job x e₀ s t) ∧
      ∃ t, visit job [.assign p .render x e₀] s = (.ok (), t) ∧
        (s.bound x = none → Substitutes job x e₀ s t) ∧
        (s.bound x ≠ none → t.value job = s.value job) := by
  refine ⟨⟨s.setLocal x (some m), visit_assign p .template hvalue, ?_⟩,
    ⟨s.setGlobal x (some m), visit_assign p .render hvalue, ?_, ?_⟩⟩
  · exact substitutes_of_value hvalue fun y => RenderState.value_setLocal job x y (some m) s
  · intro hfree
    exact substitutes_of_value hvalue fun y => RenderState.value_setGlobal job y (some m) hfree
  · exact RenderState.value_setGlobal_of_bound job (some m)

/-- The template `a` runs, and a local scope binds `x`. -/
def counting : RenderState :=
  { RenderState.initial ⟨"a", [], "dict:a", some "utf-8", true⟩ ⟨.empty, "utf-8", []⟩ with
    locals := [[("x", some (.ofNumber (.int 1)))]] }

/-- Behind `<#assign x = x + 1/>` the sum `x + x` is `(x + 1) + (x + 1)` as it was before, while
`<#global x = x + 1/>` is hidden by the local variable. -/
theorem assignment_of_successor :
    let successor : Expr := .group (.binary .add (.var "x") (.number (.int 1) "1"))
    let double : Expr := .binary .add (.var "x") (.var "x")
    let job : Job := ⟨"a", .defaults, [("x", .str "data")]⟩
    double.subst "x" successor = .binary .add successor successor ∧
      (∃ t, visit job [.assign ⟨1, 1⟩ .template "x" successor] counting = (.ok (), t) ∧
        SameOutcome (double.eval (some (t.value job)))
          ((double.subst "x" successor).eval (some (counting.value job))) ∧
        (double.subst "x" successor).eval (some (counting.value job)) =
          .ok (.ofNumber (.int 4))) ∧
      ∃ t, visit job [.assign ⟨1, 1⟩ .render "x" successor] counting = (.ok (), t) ∧
        t.value job = counting.value job := by
  intro successor double job
  obtain ⟨⟨t, ht, hsubst⟩, u, hu, -, hhidden⟩ :=
    assignment_substitutes job counting ⟨1, 1⟩ "x" successor (.ofNumber (.int 2)) rfl
  exact ⟨rfl, ⟨t, ht, (hsubst double).1, rfl⟩, u, hu, hhidden (by decide)⟩

end Stencil

import Stencil.Render.Run

/-!
# Steps of a render, applied to a state

A step of a render is a function of the state; these are the equations that apply it. The bodies
of elements are put together from steps by sequencing, and an inclusion either is refused or runs
its template one level deeper.

## Main results

* `Run.bind_apply`: a sequence of steps stops at the first failure.
* `includeTemplate_apply`: an inclusion is refused at the recursion limit, and otherwise visits the
  template it includes.
-/

namespace Stencil

namespace Run

variable {α β : Type} (s : RenderState)

@[simp] theorem pure_apply (a : α) : (pure a : Run α) s = (.ok a, s) := rfl

@[simp] theorem get_apply : (get : Run RenderState) s = (.ok s, s) := rfl

@[simp] theorem change_apply (f : RenderState → RenderState) : change f s = (.ok (), f s) := rfl

/-- A sequence of steps stops at the first failure, in the state that was reached. -/
theorem bind_apply (m : Run α) (f : α → Run β) :
    (m >>= f) s = match m s with
      | (.ok a, t) => f a t
      | (.error e, t) => (.error e, t) := by
  change ExceptT.bindCont f (m s).1 (m s).2 = _
  rcases m s with ⟨_ | _, t⟩ <;> rfl

/-- A result that does not depend on the state leaves it alone. -/
theorem lift_apply (r : Except Failure α) : lift r s = (r, s) := by
  cases r <;> rfl

/-- An evaluation looks at the state and leaves it alone. -/
theorem evaluate_apply (job : Job) (f : Scope → Except EvalError α) :
    evaluate job f s = ((f (some (s.value job))).mapError .ofEval, s) := by
  unfold evaluate
  cases f (some (s.value job)) <;> rfl

end Run

/-! ## Inclusions -/

/-- The refusal of a template that is nested too deeply, with the chain that led to it. -/
def tooDeep (job : Job) (template : Template) (s : RenderState) : Failure :=
  .run (.tooDeep job.settings.recursionLimit (job.main :: s.chain.reverse ++ [template.name])) none

/-- At the recursion limit an inclusion is refused; below it, the included template is visited. -/
theorem includeTemplate_apply (job : Job) (template : Template) (s : RenderState) :
    includeTemplate job template s =
      if job.settings.recursionLimit ≤ s.chain.length then (.error (tooDeep job template s), s)
      else Run.nested template (visit job template.root) s := by
  unfold includeTemplate
  split
  · have hbudget : s.budget job = 0 := Nat.sub_eq_zero_of_le ‹_›
    rw [hbudget]
    rfl
  · obtain ⟨n, hbudget⟩ : ∃ n, s.budget job = n + 1 :=
      Nat.exists_eq_succ_of_ne_zero (Nat.sub_ne_zero_of_lt (Nat.lt_of_not_le ‹_›))
    have hnested : job.settings.recursionLimit - (s.chain.length + 1) = n := by
      unfold RenderState.budget at hbudget
      omega
    rw [hbudget]
    -- one name more on the chain, one level less to spend
    simp only [enter, Run.nested, visit, RenderState.budget, List.length_cons, hnested]

end Stencil

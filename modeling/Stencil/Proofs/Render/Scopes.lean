import Stencil.Render.State

/-!
# What variables are bound to

A variable is looked up in the local scopes, from the innermost one outwards, then among the variables
of the render, and at last outside of it. A binding changes the value of its own name alone: a local one
always, one for the whole render unless a local scope hides it.

## Main definitions

* `RenderState.bound` is what the local scopes bind a name to.

## Main results

* `RenderState.bound_setLocal`: what the local scopes bind names to, behind a local binding.
* `RenderState.value_setLocal` and `RenderState.value_setGlobal`: the values of variables behind a
  binding.
-/

namespace Stencil

namespace Bindings

theorem find_cons (name : String) (b : String × Option Model) (bs : Bindings) :
    find name (b :: bs) = if b.1 = name then some b.2 else find name bs := by
  unfold find
  rw [List.lookup_cons]
  by_cases h : b.1 = name
  · subst h
    simp
  · simp [h, beq_false_of_ne (Ne.symm h)]

theorem find_set (name other : String) (value : Option Model) (bs : Bindings) :
    find other (set name value bs) = if name = other then some value else find other bs := by
  induction bs with
  | nil => rw [set, find_cons]
  | cons b bs ih =>
    rw [set]
    by_cases hb : b.1 = name
    · -- the name keeps its place
      rw [if_pos hb, find_cons, find_cons, hb]
      split <;> rfl
    · rw [if_neg hb, find_cons, find_cons, ih]
      by_cases ho : b.1 = other
      · rw [if_pos ho, if_pos ho, if_neg fun h => hb (ho.trans h.symm)]
      · rw [if_neg ho, if_neg ho]

end Bindings

namespace RenderState

/-- What the local scopes bind a name to, the innermost one first. -/
def bound (s : RenderState) (name : String) : Option (Option Model) :=
  s.locals.findSome? (Bindings.find name)

theorem setLocal_eq (name : String) (value : Option Model) (s : RenderState) :
    s.setLocal name value =
      { s with locals := Bindings.set name value (s.locals.headD []) :: s.locals.tail } := by
  unfold setLocal
  split
  · next h => rw [h]; rfl
  · next h => rw [h]; rfl

/-- An assignment hides what the name was bound to, in whatever scope. -/
theorem bound_setLocal (name other : String) (value : Option Model) (s : RenderState) :
    (s.setLocal name value).bound other = if name = other then some value else s.bound other := by
  rw [setLocal_eq]
  unfold bound
  rw [List.findSome?_cons, Bindings.find_set]
  by_cases h : name = other
  · rw [if_pos h, if_pos h]
  · rw [if_neg h, if_neg h]
    -- where there was no scope, the new one has no other names
    cases s.locals <;> rfl

theorem value_eq (job : Job) (s : RenderState) (name : String) :
    s.value job name = match (s.bound name).or (s.globals.find name) with
      | some value => value
      | none => outer job name := rfl

/-- Behind a local binding the name has the value that it is bound to, and every other name the value
that it had. -/
theorem value_setLocal (job : Job) (name other : String) (value : Option Model) (s : RenderState) :
    (s.setLocal name value).value job other = if other = name then value else s.value job other := by
  rw [value_eq, bound_setLocal, setLocal_eq, value_eq]
  by_cases h : other = name
  · rw [if_pos h, if_pos h.symm, Option.some_or]
  · rw [if_neg h, if_neg (Ne.symm h)]

/-- So it has behind a binding for the whole render, if no local scope binds it. -/
theorem value_setGlobal (job : Job) {name : String} (other : String) (value : Option Model)
    {s : RenderState} (hfree : s.bound name = none) :
    (s.setGlobal name value).value job other = if other = name then value else s.value job other := by
  have hbound : (s.setGlobal name value).bound other = s.bound other := rfl
  rw [value_eq, hbound, setGlobal, Bindings.find_set, value_eq]
  by_cases h : other = name
  · rw [if_pos h, if_pos h.symm, h, hfree, Option.none_or]
  · rw [if_neg h, if_neg (Ne.symm h)]

/-- A name that a local scope binds keeps its value, whatever it is bound to for the whole render. -/
theorem value_setGlobal_of_bound (job : Job) {name : String} (value : Option Model)
    {s : RenderState} (hbound : s.bound name ≠ none) :
    (s.setGlobal name value).value job = s.value job := by
  funext other
  have hsame : (s.setGlobal name value).bound other = s.bound other := rfl
  rw [value_eq, hsame, setGlobal, Bindings.find_set, value_eq]
  by_cases h : name = other
  · obtain ⟨v, hv⟩ := Option.ne_none_iff_exists'.mp hbound
    rw [← h, hv, Option.some_or, Option.some_or]
  · rw [if_neg h]

end RenderState

end Stencil

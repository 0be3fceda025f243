import Stencil.Proofs.Render.Nesting

/-!
# Renders under a higher recursion limit

The recursion limit is looked at in one place alone: where an inclusion has found its target, before
that runs. So a render under a lower limit and one under a higher limit go from moment to moment
together, until the lower limit refuses an inclusion. A refusal is what its render ends in; a render
that does not end so is therefore the same under both.

## Main definitions

* `Settings.withLimit` are the same settings but for the recursion limit.

## Main results

* `perform_withLimit`: under a higher limit an element does the same, unless the lower one refuses.
* `Moment.next_withLimit` and `Moment.Reached.withLimit`: so do single moments and whole renders.
* `fitting_render_withLimit`: a render that fits is the same under every higher limit.
-/

namespace Stencil

/-- A recursion limit that settings may have. -/
abbrev RecursionLimit := { limit : Nat // 1 ≤ limit ∧ limit ≤ maxRecursionLimit }

/-- The same settings but for the recursion limit. -/
def Settings.withLimit (settings : Settings) (limit : RecursionLimit) : Settings :=
  { settings with
    recursionLimit := limit.1
    recursionLimit_pos := limit.2.1
    recursionLimit_le := limit.2.2 }

/-- The same job but for the recursion limit. -/
def Job.withLimit (job : Job) (limit : RecursionLimit) : Job :=
  { job with settings := job.settings.withLimit limit }

/-- The render does not end in the refusal of an inclusion that is nested too deeply. -/
def Fits (job : Job) (main : Template) (store : Store) : Prop :=
  ∀ limit chain trace, (process job main store).1 ≠ .error (.run (.tooDeep limit chain) trace)

section

variable {job : Job} {low high : RecursionLimit} {main : Template} {store : Store}

/-! ## Moments under two limits -/

/-- A template that the lower limit lets run is let run by the higher one. -/
theorem allow_withLimit (job : Job) (hle : low.1 ≤ high.1) (template : Template)
    (s : RenderState) :
    allow (job.withLimit low) template s = (.error (tooDeep (job.withLimit low) template s), s) ∨
      allow (job.withLimit high) template s = allow (job.withLimit low) template s := by
  by_cases hlow : low.1 ≤ s.chain.length
  · exact .inl (if_pos hlow)
  · have hhigh : ¬ high.1 ≤ s.chain.length := fun h => hlow (Nat.le_trans hle h)
    exact .inr ((if_neg hhigh).trans (if_neg hlow).symm)

/-- **The limit is looked at where an inclusion has found its target**, and nowhere else: under a higher
limit an element does the same, unless the lower one refuses it. -/
theorem perform_withLimit (job : Job) (hle : low.1 ≤ high.1) (e : Element) (s : RenderState) :
    (∃ template t, perform (job.withLimit low) e s =
        (.error (tooDeep (job.withLimit low) template t), t)) ∨
      perform (job.withLimit high) e s = perform (job.withLimit low) e s := by
  cases e with
  | text p content => exact .inr rfl
  | interpolation p value => exact .inr rfl
  | conditional p condition body otherwise => exact .inr rfl
  | assign p scope name value => cases scope <;> exact .inr rfl
  | inclusion p i =>
    -- the target is found without a look at the limit
    have htarget : inclusionTarget (job.withLimit high) i = inclusionTarget (job.withLimit low) i :=
      rfl
    simp only [perform, Run.bind_apply, htarget]
    rcases inclusionTarget (job.withLimit low) i s with ⟨x | found, t⟩
    · exact .inr rfl
    cases found with
    | none => exact .inr rfl
    | some template =>
      rcases allow_withLimit job hle template t with hrefused | hallowed
      · exact .inl ⟨template, t, hrefused⟩
      · exact .inr hallowed

/-- From every moment the render goes on to the same moment, unless that is the one at which the lower
limit refuses an inclusion. -/
theorem Moment.next_withLimit (hle : low.1 ≤ high.1) {m n : Moment}
    (h : m.next (job.withLimit low) = some n) :
    (m.failure = none ∧ ∃ limit chain, n.failure = some (.run (.tooDeep limit chain) none)) ∨
      m.next (job.withLimit high) = some n := by
  rcases next_cases h with ⟨s, e, k, rfl, rfl⟩ | ⟨-, hany⟩
  · rw [next] at h ⊢
    rcases perform_withLimit job hle e s with ⟨template, t, hrefused⟩ | hsame
    · rw [hrefused]
      exact .inl ⟨rfl, _, _, rfl⟩
    · rw [hsame]
      exact .inr rfl
  · exact .inr (hany _)

/-! ## Whole renders -/

/-- A render that fits comes under the higher limit to all moments to which it comes under the lower
one: a refusal on the way would be what it ends in. -/
theorem Moment.Reached.withLimit (hle : low.1 ≤ high.1)
    (hfits : Fits (job.withLimit low) main store) {m : Moment}
    (h : Reached (job.withLimit low) main store m) : Reached (job.withLimit high) main store m := by
  induction h with
  | refl => exact .refl
  | @tail m n hm hstep ih =>
    rcases next_withLimit hle hstep with ⟨hnone, limit, chain, hx⟩ | hnext
    · obtain ⟨template, hlimit⟩ :=
        (Reached.tooDeep_iff hm hstep limit chain).mp ⟨hnone, none, hx⟩
      obtain ⟨trace, hends⟩ := (process_tooDeep_iff limit chain).mpr ⟨m, template, hm, hlimit⟩
      exact absurd hends (hfits limit chain trace)
    · exact ih.tail hnext

/-- How a step has ended shows in the moment at which it has. -/
theorem Moment.after_injective {k : List Task} {r r' : Except Failure Unit × RenderState}
    (h : after k r = after k r') : r = r' := by
  obtain ⟨x, s⟩ := r
  obtain ⟨x', s'⟩ := r'
  simp only [after, Moment.mk.injEq, true_and] at h
  obtain ⟨rfl, hfailure⟩ := h
  cases x <;> cases x' <;> cases hfailure <;> rfl

end

/-- **Raising the recursion limit never changes a render that fits.** Take two limits in the allowed
range. If a render under the lower one does not end in a refusal for its nesting, then under the higher
one it has the same outcome, success or the same failure with its message and trace, and ends in the
same state, with the same output and the same variables of the render. -/
theorem fitting_render_withLimit (job : Job) (main : Template) (store : Store)
    (low high : RecursionLimit) (hle : low.1 ≤ high.1)
    (hfits : Fits (job.withLimit low) main store) :
    process (job.withLimit high) main store = process (job.withLimit low) main store := by
  have hlast : Moment.Reached (job.withLimit low) main store
      (.after [] (process (job.withLimit low) main store)) :=
    leads_process (job.withLimit low) main store
  -- it is a moment under the higher limit, too, and no other moment comes after it
  have hend := (hlast.withLimit hle hfits).leads_end
  exact (Moment.after_injective (hend.eq_of_next (Moment.next_after_nil _ _))).symm

/-- The template `c`, which writes a variable. -/
def innermost : Template :=
  ⟨"c", [.interpolation ⟨1, 1⟩ (.var "x")], "dict:c", some "utf-8", true⟩

/-- The template `b`, which includes `c`. -/
def between : Template :=
  ⟨"b", [.inclusion ⟨1, 1⟩ ⟨.str "c", .default none, .default true, .default false⟩], "dict:b",
    some "utf-8", true⟩

/-- The template `a`, which includes `b`. -/
def outermost : Template :=
  ⟨"a", [.inclusion ⟨1, 1⟩ ⟨.str "b", .default none, .default true, .default false⟩], "dict:a",
    some "utf-8", true⟩

/-- Inclusions that are nested as deeply as the lower limit allows write under the higher one what they
write under the lower. -/
theorem nested_render_withLimit :
    let store : Store :=
      ⟨.empty, "utf-8", [(⟨"b", "utf-8", true⟩, between), (⟨"c", "utf-8", true⟩, innermost)]⟩
    let job : Job := .of outermost .defaults [("x", .str "in")]
    (process (job.withLimit ⟨2, by decide⟩) outermost store).2.output = "in" ∧
      process (job.withLimit ⟨128, by decide⟩) outermost store =
        process (job.withLimit ⟨2, by decide⟩) outermost store := by
  intro store job
  have hfits : Fits (job.withLimit ⟨2, by decide⟩) outermost store := by
    intro limit chain trace hrefused
    have hsuccess : (process (job.withLimit ⟨2, by decide⟩) outermost store).1.isOk = true := by
      decide +kernel
    rw [hrefused] at hsuccess
    cases hsuccess
  exact ⟨by decide +kernel,
    fitting_render_withLimit job outermost store _ _ (by decide) hfits⟩

end Stencil

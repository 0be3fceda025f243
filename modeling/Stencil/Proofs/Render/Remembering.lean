import Stencil.Proofs.Render.Demand
import Stencil.Proofs.Render.Moment
import Stencil.Proofs.Render.Scopes
import Stencil.Proofs.Store.History

/-!
# What a render remembers

All that a render does with its store is to ask it. At each moment the store is therefore the one with
which the render began, after a number of questions; what is true of a store whatever it is asked is true
of it all along.

## Main results

* `Moment.next_store`: a single step leaves the store alone or asks it a question.
* `Moment.Reached.store_after`: what a render remembers at a moment it has been asked for.
* `Moment.Reached.mirrors`: a store that mirrors its sources does so at each moment.
-/

namespace Stencil

section

variable {job : Job}

/-- An inclusion that looks for its target leaves the store alone or asks it a question. -/
theorem inclusionTarget_store (job : Job) (i : Inclusion) (s : RenderState) :
    (inclusionTarget job i s).2.store = s.store ∨
      ∃ q, (inclusionTarget job i s).2.store = (s.store.ask q).2 := by
  rcases i.asks_or_unasked job s with ⟨d, hasks⟩ | ⟨x, hunasked⟩
  · rw [hasks.inclusionTarget_ask]
    exact .inr ⟨d.query job, rfl⟩
  · rw [hunasked.inclusionTarget_eq]
    exact .inl rfl

theorem perform_store (job : Job) (e : Element) (s : RenderState) :
    (perform job e s).2.store = s.store ∨
      ∃ q, (perform job e s).2.store = (s.store.ask q).2 := by
  cases e with
  | text p content => exact .inl rfl
  | interpolation p value =>
    left
    simp only [perform, Run.bind_apply, Run.evaluate_apply]
    cases value.evalText (some (s.value job)) <;> rfl
  | conditional p condition body otherwise =>
    left
    simp only [perform, Run.bind_apply, Run.evaluate_apply]
    cases condition.evalFlag (some (s.value job)) <;> rfl
  | assign p scope name value =>
    left
    cases scope <;>
    · simp only [perform, Run.bind_apply, Run.evaluate_apply, Run.change_apply,
        RenderState.setLocal_eq]
      cases value.eval (some (s.value job)) <;> rfl
  | inclusion p i =>
    have htarget := inclusionTarget_store job i s
    simp only [perform, Run.bind_apply]
    generalize inclusionTarget job i s = r at htarget
    rcases r with ⟨x | found, t⟩
    · exact htarget
    cases found with
    | none => exact htarget
    | some template =>
      -- whether it may run or not, the template has been found already
      simp only [allow_state]
      exact htarget

namespace Moment

theorem store_afterPerform (k : List Task) (r : Except Failure Descent × RenderState) :
    (afterPerform k r).state.store = r.2.store := by
  rcases r with ⟨_ | _ | _ | _, t⟩ <;> rfl

/-- A single step leaves the store alone or asks it a question. -/
theorem next_store {m n : Moment} (h : m.next job = some n) :
    n.state.store = m.state.store ∨ ∃ q, n.state.store = (m.state.store.ask q).2 := by
  rcases next_cases h with ⟨s, e, k, rfl, rfl⟩ | ⟨hsame, -⟩
  · rw [store_afterPerform]
    exact perform_store job e s
  · exact .inl hsame

variable {main : Template} {store : Store} {m : Moment}

/-- **What a render remembers it has been asked for**: at each moment its store is the one with which it
began, after questions. -/
theorem Reached.store_after (h : Reached job main store m) :
    ∃ questions : List Query, m.state.store = store.after (questions.map .get) := by
  induction h with
  | refl => exact ⟨[], rfl⟩
  | @tail m n hm hstep ih =>
    obtain ⟨questions, hquestions⟩ := ih
    rcases next_store hstep with hsame | ⟨q, hq⟩
    · exact ⟨questions, hsame.trans hquestions⟩
    · refine ⟨questions ++ [q], ?_⟩
      rw [hq, hquestions, List.map_append, List.map_singleton, Store.after_append_singleton]
      rfl

/-- A render that begins with sources as they are remembered goes on to remember them so. -/
theorem Reached.mirrors (h : Reached job main store m) {l : Loader} {defaultEncoding : String}
    (hstore : store.Mirrors l defaultEncoding) : m.state.store.Mirrors l defaultEncoding := by
  induction h with
  | refl => exact hstore
  | tail hm hstep ih =>
    rcases next_store hstep with hsame | ⟨q, hq⟩
    · rw [hsame]
      exact ih
    · rw [hq]
      exact (ih.ask q).2

end Moment

end

end Stencil

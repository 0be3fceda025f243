import Stencil.Proofs.Render.Composition
import Stencil.Proofs.Template.Refusal

/-!
# What elements raise

A failure arises in an expression, a name, an attribute or the loading of a template. It arises
without a trace, and a loading error arises as an error of the inclusion that asked for the template.

## Main definitions

* `Failure.Ordinary` is a failure as it arises anywhere but at the recursion limit.
* `Run.Raises` says which failures a step can end in.

## Main results

* `load_error` and `Store.get_error`: how loading a template can fail.
* `raises_inclusionTarget`: finding the target of an inclusion raises ordinary failures alone.
-/

namespace Stencil

/-- The failures of loading a template. -/
inductive Failure.OfLoading : Failure → Prop
  | malformedName (name defect : String) : OfLoading (.run (.malformedName name defect) none)
  | load (e : LoadError) : OfLoading (.load e)
  | folding {x : Failure} (h : x.OfFolding) : OfLoading x
  | nulInCharset : OfLoading .nulInCharset

/-- A failure as it arises in a running element, below the recursion limit: nothing has attached a
trace to it, and it is no bare error of loading or parsing. -/
inductive Failure.Ordinary : Failure → Prop
  | value (e : ValueError) : Ordinary (.run (.value e) none)
  | malformedName (name defect : String) : Ordinary (.run (.malformedName name defect) none)
  | inclusion (name : String) (e : LoadError) : Ordinary (.run (.inclusion name (some e)) none)
  | defect (e : Defect) : Ordinary (.defect e)
  | arithmetic (e : ArithmeticError) : Ordinary (.arithmetic e)
  | nulInCharset : Ordinary .nulInCharset

namespace Failure

theorem ordinary_ofEval (e : EvalError) : (ofEval e).Ordinary := by
  cases e <;> constructor

theorem OfLoading.ordinary {x : Failure} (h : x.OfLoading) (name : String) :
    (includeFailure name x).Ordinary := by
  cases h with
  | malformedName n defect => exact .malformedName n defect
  | load e => exact .inclusion name e
  | folding h => cases h <;> constructor
  | nulInCharset => exact .nulInCharset

end Failure

/-! ## Loading -/

theorem templateOf_error {r : Request} {label text : String} {x : Failure}
    (h : templateOf r label text = .error x) : x.OfLoading := by
  unfold templateOf at h
  split at h
  · split at h
    · cases h
      exact .load _
    · next hparse hne =>
      -- a source that is no template has an issue, which was the case before, or cannot be folded
      rcases bind_eq_error.mp h with h | ⟨root, -, h⟩
      · rcases parseTemplate_error h with ⟨e, rfl⟩ | hfolding
        · exact absurd (bind_eq_error.mpr (.inl h)) (hne e)
        · exact .folding hfolding
      · cases h
  · cases h

theorem loadSource_error {r : Request} {source : Source} {x : Failure}
    (h : loadSource r source = .error x) : x.OfLoading := by
  unfold loadSource at h
  split at h
  · cases h
    exact .load _
  · split at h
    · cases h
      exact .nulInCharset
    · cases h
      exact .load _
    · cases h
      exact .load _
    · exact templateOf_error h

theorem load_error {l : Loader} {r : Request} {x : Failure} (h : load l r = .error x) :
    x.OfLoading := by
  unfold load at h
  split at h
  · cases h
  · exact loadSource_error (map_eq_error.mp h)

theorem missing_error {r : Request} {ignoreMissing : Bool} {x : Failure}
    (h : missing r ignoreMissing = .error x) : x.OfLoading := by
  cases ignoreMissing
  · cases h
    exact .load _
  · cases h

theorem Store.get_error {s : Store} {name : String} {encoding : Option String}
    {parse ignoreMissing : Bool} {x : Failure}
    (h : (s.get name encoding parse ignoreMissing).1 = .error x) : x.OfLoading := by
  unfold get at h
  split at h
  · next e hrequest =>
    cases h
    unfold Request.ofName at hrequest
    split at hrequest <;> cases hrequest
    exact .malformedName _ _
  · unfold answer at h
    split at h
    · cases h
    · split at h
      · next e hload =>
        cases h
        exact load_error hload
      · exact missing_error h
      · cases h

/-! ## Steps -/

namespace Run

variable {α β : Type} {P : Failure → Prop}

/-- If the step fails, it is with such a failure. -/
def Raises (P : Failure → Prop) (m : Run α) : Prop :=
  ∀ s x t, m s = (.error x, t) → P x

theorem raises_pure (a : α) : Raises P (pure a : Run α) := by
  intro s x t h
  rw [pure_apply] at h
  cases h

theorem raises_bind {m : Run α} {f : α → Run β} (hm : Raises P m) (hf : ∀ a, Raises P (f a)) :
    Raises P (m >>= f) := by
  intro s x u h
  rw [bind_apply] at h
  split at h
  · next a t heq => exact hf a t x u h
  · next e t heq =>
    cases h
    exact hm s x u heq

theorem raises_evaluate (job : Job) (f : Scope → Except EvalError α) :
    Raises Failure.Ordinary (evaluate job f) := by
  intro s x t h
  rw [evaluate_apply] at h
  cases hvalue : f (some (s.value job)) with
  | ok a => rw [hvalue] at h; cases h
  | error e =>
    rw [hvalue] at h
    cases h
    exact Failure.ordinary_ofEval e

theorem raises_resolve (base name : String) :
    Raises Failure.Ordinary (lift (resolveName base name)) := by
  intro s x t h
  rw [lift_apply] at h
  unfold resolveName at h
  cases hname : Name.resolve base name with
  | ok full => rw [hname] at h; cases h
  | error d =>
    rw [hname] at h
    cases h
    exact .malformedName _ _

theorem raises_request (job : Job) (name full : String) (encoding : Option String)
    (parse ignoreMissing : Bool) :
    Raises Failure.Ordinary (request job name full encoding parse ignoreMissing) := by
  intro s x t h
  unfold request at h
  split at h
  · next e u hfetch =>
    cases h
    -- a bare loading error does not get out: it becomes one of the inclusion
    exact (Store.get_error (congrArg Prod.fst hfetch)).ordinary name
  · next hne => exact absurd h (hne x t)

theorem sequential_raises (job : Job) : Sequential job (Raises Failure.Ordinary) where
  pure := raises_pure
  bind := raises_bind
  evaluate := raises_evaluate job
  resolve := raises_resolve
  named h := fun s x t heq => h s.current.name s x t heq
  request := raises_request job

end Run

theorem raises_inclusionTarget (job : Job) (i : Inclusion) :
    Run.Raises Failure.Ordinary (inclusionTarget job i) :=
  (Run.sequential_raises job).inclusionTarget i

end Stencil

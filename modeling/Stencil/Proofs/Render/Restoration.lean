import Stencil.Proofs.Render.Composition
import Stencil.Proofs.Store.Memory

/-!
# What running keeps

However the running of elements ends, it leaves the template that is running, the chain of
inclusions and the stack of running elements as they were, and of the local scopes it changes only
the innermost one. An inclusion changes no local scope at all. The output is only appended to, and
the sources of templates stay what they are. The settings and the data of a render are no part of
its state.

## Main definitions

* `Kept s t` relates the states before and after elements run, `Restored s t` those before and
  after an inclusion.
* `Run.Keeps` is a step that keeps what it must from every state.

## Main results

* `hereditary_keeps`: all that runs keeps what it must.
* `running_restores`: visiting keeps, including restores, and a refused inclusion changes nothing.
-/

namespace Stencil

/-- What elements leave as it was, whether they succeed or fail: everything but the innermost local
scope, the variables of the render, what is remembered of the sources, and the end of the output. -/
structure Kept (s t : RenderState) : Prop where
  current : t.current = s.current
  chain : t.chain = s.chain
  frames : t.frames = s.frames
  /-- Every local scope but the innermost one stays, with all its bindings. -/
  outerScopes : t.locals.tail = s.locals.tail
  scopeCount : s.locals ≠ [] → t.locals.length = s.locals.length
  /-- The output is only appended to. -/
  output : ∃ written, t.output = s.output ++ written
  loader : t.store.loader = s.store.loader
  defaultEncoding : t.store.defaultEncoding = s.store.defaultEncoding

/-- What an inclusion leaves as it was: every local scope, too. -/
structure Restored (s t : RenderState) : Prop extends Kept s t where
  locals : t.locals = s.locals

namespace Kept

theorem refl (s : RenderState) : Kept s s where
  current := rfl
  chain := rfl
  frames := rfl
  outerScopes := rfl
  scopeCount _ := rfl
  output := ⟨"", by simp⟩
  loader := rfl
  defaultEncoding := rfl

theorem trans {s t u : RenderState} (hst : Kept s t) (htu : Kept t u) : Kept s u where
  current := htu.current.trans hst.current
  chain := htu.chain.trans hst.chain
  frames := htu.frames.trans hst.frames
  outerScopes := htu.outerScopes.trans hst.outerScopes
  scopeCount h := by
    -- where there was a scope there is one in between, too
    have ht : t.locals ≠ [] := by
      intro hnil
      have := hst.scopeCount h
      rw [hnil, List.length_nil] at this
      exact h (List.length_eq_zero_iff.mp this.symm)
    rw [htu.scopeCount ht, hst.scopeCount h]
  output := by
    obtain ⟨x, hx⟩ := hst.output
    obtain ⟨y, hy⟩ := htu.output
    exact ⟨x ++ y, by rw [hy, hx, String.append_assoc]⟩
  loader := htu.loader.trans hst.loader
  defaultEncoding := htu.defaultEncoding.trans hst.defaultEncoding

end Kept

namespace RenderState

theorem kept_write (text : String) (s : RenderState) : Kept s (s.write text) :=
  { Kept.refl s with output := ⟨text, rfl⟩ }

theorem kept_setGlobal (name : String) (value : Option Model) (s : RenderState) :
    Kept s (s.setGlobal name value) :=
  { Kept.refl s with }

/-- Binding a local variable changes the innermost scope alone. -/
theorem kept_setLocal (name : String) (value : Option Model) (s : RenderState) :
    Kept s (s.setLocal name value) := by
  unfold setLocal
  split
  · next h => exact { Kept.refl s with outerScopes := by simp [h], scopeCount := by simp [h] }
  · next h => exact { Kept.refl s with outerScopes := by simp [h], scopeCount := by simp [h] }

end RenderState

namespace Run

variable {α β : Type}

/-- A step that keeps what running elements must keep, however it ends. -/
def Keeps (m : Run α) : Prop := ∀ s, Kept s (m s).2

theorem keeps_pure (a : α) : Keeps (pure a) := fun s => Kept.refl s

theorem keeps_bind {m : Run α} {f : α → Run β} (hm : Keeps m) (hf : ∀ a, Keeps (f a)) :
    Keeps (m >>= f) := by
  intro s
  have hfirst := hm s
  rw [bind_apply]
  split
  · next a t h =>
    rw [h] at hfirst
    exact hfirst.trans (hf a t)
  · next e t h =>
    -- a failure ends the sequence in the state that the first step left
    rw [h] at hfirst
    exact hfirst

theorem keeps_lift (r : Except Failure α) : Keeps (lift r) := by
  intro s
  rw [lift_apply]
  exact Kept.refl s

theorem keeps_evaluate (job : Job) (f : Scope → Except EvalError α) : Keeps (evaluate job f) := by
  intro s
  rw [evaluate_apply]
  exact Kept.refl s

/-- The element that runs is taken off the stack again on every way out. -/
theorem keeps_framed (element : Element) {body : Run Unit} (h : Keeps body) :
    Keeps (framed element body) := by
  intro s
  have hbody := h { s with frames := ⟨element, s.current⟩ :: s.frames }
  unfold framed
  split <;>
  · next heq =>
    rw [heq] at hbody
    exact { hbody with frames := congrArg List.tail hbody.frames }

/-- The included template, its scope and its entry in the chain are taken back on every way out. -/
theorem restored_nested (template : Template) {body : Run Unit} (h : Keeps body)
    (s : RenderState) : Restored s (nested template body s).2 := by
  have hbody := h
    { s with
      current := template
      chain := template.name :: s.chain
      locals := [] :: s.locals }
  -- the scopes of the includer are those below the one pushed here, which the body keeps
  have hlocals := hbody.outerScopes
  unfold nested
  exact
    { hbody with
      current := rfl
      chain := congrArg List.tail hbody.chain
      locals := hlocals
      outerScopes := congrArg List.tail hlocals
      scopeCount := fun _ => congrArg List.length hlocals }

end Run

/-- Asking for a template changes nothing but what is remembered. -/
theorem Run.keeps_request (job : Job) (name full : String) (encoding : Option String)
    (parse ignoreMissing : Bool) :
    (request job name full encoding parse ignoreMissing).Keeps := by
  intro s
  obtain ⟨hloader, hencoding⟩ := s.store.ask_kept
    ⟨full, some (encoding.getD job.settings.defaultEncoding), parse, ignoreMissing⟩
  have hfetch : Kept s (fetch job full encoding parse ignoreMissing s).2 :=
    { Kept.refl s with loader := hloader, defaultEncoding := hencoding }
  unfold request
  -- wrapping a loading error does not touch the state
  split
  · next heq =>
    rw [heq] at hfetch
    exact hfetch
  · exact hfetch

/-! ## Elements and inclusions -/

/-- **All that runs keeps what it must.** -/
theorem hereditary_keeps (job : Job) : Run.Hereditary job Run.Keeps where
  pure := Run.keeps_pure
  bind := Run.keeps_bind
  evaluate := Run.keeps_evaluate job
  resolve _ _ := Run.keeps_lift _
  named hf s := hf s.current.name s
  request := Run.keeps_request job
  write text s := RenderState.kept_write text s
  setLocal name value s := RenderState.kept_setLocal name value s
  setGlobal name value s := RenderState.kept_setGlobal name value s
  framed := Run.keeps_framed
  nested template _ h s := (Run.restored_nested template h s).toKept
  refuse _ s := Kept.refl s
  budgeted hf s := hf (s.budget job) s

section

variable {job : Job}

theorem keeps_inclusionTarget (job : Job) (i : Inclusion) : (inclusionTarget job i).Keeps :=
  (hereditary_keeps job).inclusionTarget i

theorem keeps_visit (elements : List Element) : (visit job elements).Keeps :=
  (hereditary_keeps job).visit elements

theorem restored_include (template : Template) (s : RenderState) :
    Restored s (includeTemplate job template s).2 := by
  rw [includeTemplate_apply]
  split
  · exact { Kept.refl s with locals := rfl }
  · exact Run.restored_nested template (keeps_visit template.root) s

end

/-! ## The restoration theorem -/

/-- **Running restores the state**, from every state and however it ends. Including a template
leaves every local scope and all that `Kept` lists as it was; visiting elements leaves all but the
innermost scope. An inclusion at the recursion limit is refused and changes nothing. -/
theorem running_restores (job : Job) (s : RenderState) :
    (∀ template, Restored s (includeTemplate job template s).2) ∧
      (∀ elements, Kept s (visit job elements s).2) ∧
      ∀ template, includeTemplate job template s =
        if job.settings.recursionLimit ≤ s.chain.length then (.error (tooDeep job template s), s)
        else Run.nested template (visit job template.root) s :=
  ⟨fun template => restored_include template s, fun elements => keeps_visit elements s,
    fun template => includeTemplate_apply job template s⟩

end Stencil

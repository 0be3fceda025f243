import Stencil.Proofs.Render.Alike
import Stencil.Proofs.Render.Scopes
import Stencil.Proofs.Render.Visit

/-!
# Inclusions as inlining

A template that includes nothing runs, when it is included, as its elements would run in the place
of the inclusion. What it assigns it binds in a scope of its own, in front of the scopes that its
elements would bind it in; but a variable is looked up through all of them, so no element can tell.
When the template ends, its scope is dropped, and that is all that the inclusion changes.

## Main definitions

* `Element.inclusionFree` says that no inclusion stands in an element.
* `RenderState.Shows` relates states whose scopes bind the same names to the same values, wherever.
* `Inlined` says how including a template compares to visiting its elements.

## Main results

* `shows_runAll`: elements that include nothing run the same from states that show the same.
* `include_inlines`: including such a template is inlining it, but for the local scopes.
-/

namespace Stencil

/-! ## Elements that include nothing -/

namespace Element

mutual

/-- No inclusion stands in the element, at whatever depth. -/
def inclusionFree : Element → Bool
  | text _ _ => true
  | interpolation _ _ => true
  | conditional _ _ body none => inclusionFreeAll body
  | conditional _ _ body (some otherwise) => inclusionFreeAll body && inclusionFreeAll otherwise
  | assign _ _ _ _ => true
  | inclusion _ _ => false

/-- No inclusion stands in the elements, at whatever depth. -/
def inclusionFreeAll : List Element → Bool
  | [] => true
  | e :: es => inclusionFree e && inclusionFreeAll es

end

end Element

/-! ## States that show the same -/

namespace RenderState

/-- The states show the same to elements: what has been written, the variables of the render and
what the local scopes bind, wherever they bind it. What is remembered of the sources is what it is
on either side. -/
structure Shows (a b : Store) (s t : RenderState) : Prop where
  output : s.output = t.output
  globals : s.globals = t.globals
  bound : ∀ name, s.bound name = t.bound name
  left : s.store = a
  right : t.store = b

end RenderState

section

variable {job : Job} {a b : Store} {onInclude onInclude' : Template → Run Unit}

/-- Where a name is bound, elements cannot tell. -/
theorem respected_shows (job : Job) (a b : Store) :
    Run.Respected job (RenderState.Shows a b) where
  value h := by
    funext name
    -- the local scopes are searched before the rest, which both states share
    rw [RenderState.value_eq, RenderState.value_eq, h.bound, h.globals]
  frames _ _ h := { h with }
  write text h := { h with output := congrArg (· ++ text) h.output }
  setLocal {s t} name value h := by
    have hbound : ∀ other,
        (s.setLocal name value).bound other = (t.setLocal name value).bound other := by
      intro other
      rw [RenderState.bound_setLocal, RenderState.bound_setLocal, h.bound]
    rw [RenderState.setLocal_eq, RenderState.setLocal_eq] at hbound ⊢
    exact { h with bound := hbound }
  setGlobal name value h := { h with globals := congrArg (Bindings.set name value) h.globals }

mutual

theorem shows_runElement (e : Element) (h : e.inclusionFree = true) :
    Run.AlikeUnder (RenderState.Shows a b) (runElement job onInclude e)
      (runElement job onInclude' e) := by
  match e with
  | .text p content => exact (respected_shows job a b).text _ _ content
  | .interpolation p value => exact (respected_shows job a b).interpolation _ _ value
  | .assign p scope name value => exact (respected_shows job a b).assign _ _ scope name value
  | .inclusion p i => rw [Element.inclusionFree] at h; cases h
  | .conditional p c body none =>
    rw [Element.inclusionFree] at h
    exact (respected_shows job a b).conditional _ _ c (shows_runAll body h)
  | .conditional p c body (some otherwise) =>
    rw [Element.inclusionFree, Bool.and_eq_true] at h
    exact (respected_shows job a b).branches _ _ c (shows_runAll body h.1)
      (shows_runAll otherwise h.2)

/-- **Elements that include nothing run the same from states that show the same**, and lead to such
states, whatever inclusions would do. -/
theorem shows_runAll (es : List Element) (h : Element.inclusionFreeAll es = true) :
    Run.AlikeUnder (RenderState.Shows a b) (runAll job onInclude es)
      (runAll job onInclude' es) := by
  match es with
  | [] => exact .pure ()
  | e :: es =>
    rw [Element.inclusionFreeAll, Bool.and_eq_true] at h
    exact .cons (shows_runElement e h.1) (shows_runAll es h.2)

end

theorem shows_visit (es : List Element) (h : Element.inclusionFreeAll es = true) :
    Run.AlikeUnder (RenderState.Shows a b) (visit job es) (visit job es) := fun s t hst =>
  shows_runAll es h s t hst

/-- Elements that include nothing remember nothing of the sources. -/
theorem store_visit (es : List Element) (h : Element.inclusionFreeAll es = true) (s : RenderState) :
    (visit job es s).2.store = s.store :=
  (shows_visit es h s s ⟨rfl, rfl, fun _ => rfl, rfl, rfl⟩).2.left

end

/-! ## Finding the target -/

/-- The step changes nothing but what is remembered of the sources, and does not look at the running
elements. -/
def Run.Loads {α : Type} (m : Run α) : Prop :=
  ∀ s fs, m { s with frames := fs } = ((m s).1, { s with frames := fs, store := (m s).2.store })

namespace Run.Loads

variable {α β : Type}

theorem pure (a : α) : Loads (Pure.pure a) := fun _ _ => rfl

theorem apply {m : Run α} (h : m.Loads) (s : RenderState) :
    m s = ((m s).1, { s with store := (m s).2.store }) := h s s.frames

theorem bind {m : Run α} {f : α → Run β} (hm : m.Loads) (hf : ∀ a, (f a).Loads) :
    (m >>= f).Loads := by
  intro s fs
  rw [bind_apply, bind_apply, hm s fs, hm.apply s]
  cases (m s).1 with
  | error x => rfl
  | ok a => exact hf a { s with store := (m s).2.store } fs

end Run.Loads

theorem sequential_loads (job : Job) : Run.Sequential job Run.Loads where
  pure := .pure
  bind := .bind
  evaluate f s fs := by
    rw [Run.evaluate_apply, Run.evaluate_apply]
    rfl
  resolve base name s fs := by
    rw [Run.lift_apply, Run.lift_apply]
  named hf s fs := hf s.current.name s fs
  request name full encoding parse ignoreMissing s fs := by
    -- the store is all that a request looks at
    have hfetch : fetch job full encoding parse ignoreMissing { s with frames := fs } =
        ((fetch job full encoding parse ignoreMissing s).1,
          { s with
            frames := fs
            store := (fetch job full encoding parse ignoreMissing s).2.store }) := rfl
    unfold request
    rw [hfetch]
    rcases fetch job full encoding parse ignoreMissing s with ⟨_ | _, t⟩ <;> rfl

/-- An inclusion that finds its target runs it, in the state that finding it has led to. -/
theorem visit_of_found {job : Job} {i : Inclusion} {template : Template} {s t : RenderState}
    (h : inclusionTarget job i s = (.ok (some template), t)) (p : Place) :
    t = { s with store := t.store } ∧
      visit job [.inclusion p i] s =
        Run.framed (.inclusion p i) (includeTemplate job template) t := by
  have hloads := (sequential_loads job).inclusionTarget i
  have ht : t = { s with store := t.store } := by
    have happly := hloads.apply s
    rw [h] at happly
    exact congrArg Prod.snd happly
  -- the inclusion itself, on the stack meanwhile, makes no difference to what it finds
  have hinside : inclusionTarget job i (s.enterElement (.inclusion p i)) =
      (.ok (some template), t.enterElement (.inclusion p i)) := by
    have hframes := hloads s (⟨.inclusion p i, s.current⟩ :: s.frames)
    rw [h] at hframes
    rw [ht]
    exact hframes
  refine ⟨ht, ?_⟩
  rw [visit_singleton, runElement_of_budget rfl, Run.framed_apply, Run.framed_apply, Run.bind_apply,
    perform_inclusion hinside, ← Run.bind_apply, allow_apply]

/-! ## Inlining -/

/-- The run of an inclusion ends as visiting the elements of its template from `s` does, in the same
state but for the local scopes, which are those of `s`, and for the store. -/
structure Inlined (job : Job) (template : Template) (s : RenderState) (store : Store)
    (r : Except Failure Unit × RenderState) : Prop where
  outcome : r.1.mapError Failure.untraced =
    (visit job template.root s).1.mapError Failure.untraced
  state : r.2 = { (visit job template.root s).2 with locals := s.locals, store }

section

variable {job : Job} {template : Template} {s : RenderState}

/-- Including a template that includes nothing writes and binds what its elements do, and remembers
nothing. -/
theorem include_of_shows {a b : Store} {u : RenderState}
    (hfree : Element.inclusionFreeAll template.root = true)
    (hlimit : u.chain.length < job.settings.recursionLimit) (h : u.Shows a b s) :
    (includeTemplate job template u).1.mapError Failure.untraced =
        (visit job template.root s).1.mapError Failure.untraced ∧
      (includeTemplate job template u).2.output = (visit job template.root s).2.output ∧
      (includeTemplate job template u).2.globals = (visit job template.root s).2.globals ∧
      (includeTemplate job template u).2.store = a := by
  rw [includeTemplate_apply, if_neg (Nat.not_le.mpr hlimit), Run.nested_apply]
  -- the scope of the template is empty as yet, and hides nothing
  have henter : (u.enterTemplate template).Shows a b s := { h with }
  obtain ⟨houtcome, hstate⟩ := shows_visit template.root hfree _ _ henter
  exact ⟨houtcome, hstate.output, hstate.globals, hstate.left⟩

/-- Whatever elements are running and whatever is remembered, including a template that includes
nothing ends as visiting its elements does, in the same state but for the local scopes. -/
theorem include_of_inclusionFree (hfree : Element.inclusionFreeAll template.root = true)
    (hlimit : s.chain.length < job.settings.recursionLimit) (store : Store) (fs : List Frame) :
    (includeTemplate job template { s with store, frames := fs }).1.mapError Failure.untraced =
        (visit job template.root s).1.mapError Failure.untraced ∧
      (includeTemplate job template { s with store, frames := fs }).2 =
        { (visit job template.root s).2 with locals := s.locals, store, frames := fs } := by
  obtain ⟨houtcome, houtput, hglobals, hstore⟩ :=
    include_of_shows (s := s) (u := { s with store, frames := fs }) hfree hlimit
      ⟨rfl, rfl, fun _ => rfl, rfl, rfl⟩
  have hrestored : Restored _ (includeTemplate job template { s with store, frames := fs }).2 :=
    restored_include template _
  have hkept : Kept s (visit job template.root s).2 := keeps_visit template.root s
  refine ⟨houtcome, ?_⟩
  -- what neither writes nor binds is as it was in both runs
  generalize (includeTemplate job template { s with store, frames := fs }).2 = v at *
  cases v
  simp only [RenderState.mk.injEq]
  exact ⟨hrestored.current.trans hkept.current.symm, houtput, hglobals, hrestored.locals,
    hrestored.frames, hrestored.chain.trans hkept.chain.symm, hstore⟩

end

/-- What an element adds to a run is a trace. -/
theorem Run.untraced_framed (e : Element) (body : Run Unit) (s : RenderState) :
    (Run.framed e body s).1.mapError Failure.untraced =
        (body (s.enterElement e)).1.mapError Failure.untraced ∧
      (Run.framed e body s).2 = (body (s.enterElement e)).2.leaveElement := by
  rw [Run.framed_apply]
  rcases body (s.enterElement e) with ⟨x | _, t⟩
  · exact ⟨congrArg Except.error (untraced_annotate t.frames x), rfl⟩
  · exact ⟨rfl, rfl⟩

/-- **An inclusion is inlining, but for a local scope.** Below the recursion limit, a template that
includes nothing does when it is included what visiting its elements in the place of the inclusion
would do: the outcome is the same, but for the trace, and so are the output and the variables of the
render, whether it is the template that is included or an element that has found it. The two differ
in the local scopes, which the inclusion leaves as they were; what is remembered of the sources is
what finding the template has led to. -/
theorem include_inlines (job : Job) (template : Template) (s : RenderState)
    (hfree : Element.inclusionFreeAll template.root = true)
    (hlimit : s.chain.length < job.settings.recursionLimit) :
    (visit job template.root s).2.store = s.store ∧
      Inlined job template s s.store (includeTemplate job template s) ∧
      ∀ (p : Place) (i : Inclusion) (t : RenderState),
        inclusionTarget job i s = (.ok (some template), t) →
        Inlined job template s t.store (visit job [.inclusion p i] s) := by
  have hframes : (visit job template.root s).2.frames = s.frames :=
    (keeps_visit template.root s).frames
  refine ⟨store_visit template.root hfree s, ?_, ?_⟩
  · obtain ⟨houtcome, hstate⟩ := include_of_inclusionFree hfree hlimit s.store s.frames
    exact ⟨houtcome, hstate.trans (by simp only [hframes])⟩
  · intro p i t htarget
    -- inside the element the state is the one before but for its store and its stack
    obtain ⟨ht, hvisit⟩ := visit_of_found htarget p
    have hinside : t.enterElement (.inclusion p i) =
        { s with store := t.store, frames := ⟨.inclusion p i, s.current⟩ :: s.frames } := by
      rw [ht]
      rfl
    obtain ⟨houtcome, hstate⟩ := include_of_inclusionFree hfree hlimit t.store
      (⟨.inclusion p i, s.current⟩ :: s.frames)
    obtain ⟨huntraced, hleave⟩ :=
      Run.untraced_framed (.inclusion p i) (includeTemplate job template) t
    rw [hinside] at huntraced hleave
    rw [hvisit]
    refine ⟨huntraced.trans houtcome, ?_⟩
    rw [hleave, hstate]
    simp only [RenderState.leaveElement, List.tail_cons, hframes]

/-- The template `b`, which hides a local variable and binds one of the render to what it sees. -/
def shadower : Template :=
  ⟨"b", [.assign ⟨1, 1⟩ .template "x" (.binary .add (.var "x") (.str "er")),
    .assign ⟨1, 25⟩ .render "y" (.var "x"),
    .conditional ⟨1, 41⟩ (.binary .eq (.var "x") (.var "y"))
      [.interpolation ⟨1, 53⟩ (.var "x")] none],
    "dict:b", some "utf-8", true⟩

/-- The template `a` runs and has bound `x`; `b` is loaded. -/
def shadowed : RenderState :=
  ⟨⟨"a", [], "dict:a", some "utf-8", true⟩, "", [], [[("x", some (.ofText "out"))]], [], [],
    ⟨.empty, "utf-8", [(⟨"b", "utf-8", true⟩, shadower)]⟩⟩

/-- The included template writes and binds what its elements would, and leaves the variable that
they would bind anew as it was. -/
theorem include_of_shadower :
    Inlined ⟨"a", .defaults, []⟩ shadower shadowed shadowed.store
        (visit ⟨"a", .defaults, []⟩
          [.inclusion ⟨1, 1⟩ ⟨.str "b", .default none, .default true, .default false⟩] shadowed) ∧
      (visit ⟨"a", .defaults, []⟩ shadower.root shadowed).2.output = "outer" ∧
      (visit ⟨"a", .defaults, []⟩ shadower.root shadowed).2.globals =
        [("y", some (.ofText "outer"))] ∧
      (visit ⟨"a", .defaults, []⟩ shadower.root shadowed).2.locals ≠ shadowed.locals := by
  obtain ⟨-, -, hincluded⟩ :=
    include_inlines ⟨"a", .defaults, []⟩ shadower shadowed rfl (by decide)
  exact ⟨hincluded _ ⟨.str "b", .default none, .default true, .default false⟩ shadowed rfl,
    by decide +kernel, by decide +kernel, by decide +kernel⟩

end Stencil

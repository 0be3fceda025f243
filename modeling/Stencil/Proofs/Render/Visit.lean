import Stencil.Proofs.Render.Raising
import Stencil.Proofs.Render.Restoration

/-!
# Visiting elements, one by one

Running is defined within a budget of nesting, which an inclusion spends. The equations here speak of
no budget: a list of elements is visited by running its first element and then the others, and an
element first does its own part and then goes on to what that leads into, a branch that was selected
or a template that was found.

## Main definitions

* `perform` is an element's own part, `proceed` what it leads into.

## Main results

* `runElement_of_budget`: an element does its own part and goes on.
* `visit_cons` and `visit_append`: how lists of elements are visited.
* `performed`: all that an element's own part can do.
-/

namespace Stencil

/-- What the own part of an element leads into. -/
inductive Descent
  | nothing
  /-- The selected branch of a conditional. -/
  | branch (elements : List Element)
  /-- The template that an inclusion has found. -/
  | included (template : Template)

/-- The elements that a condition selects; a branch that is not written has none. -/
def selected (holds : Bool) (body : List Element) (otherwise : Option (List Element)) :
    List Element :=
  if holds then body else otherwise.getD []

namespace RenderState

def enterElement (e : Element) (s : RenderState) : RenderState :=
  { s with frames := ⟨e, s.current⟩ :: s.frames }

def leaveElement (s : RenderState) : RenderState :=
  { s with frames := s.frames.tail }

def enterTemplate (template : Template) (s : RenderState) : RenderState :=
  { s with
    current := template
    chain := template.name :: s.chain
    locals := [] :: s.locals }

/-- Back from an included template to the one that included it. -/
def leaveTemplate (saved : Template) (s : RenderState) : RenderState :=
  { s with current := saved, chain := s.chain.tail, locals := s.locals.tail }

end RenderState

/-! ## The own part of an element -/

/-- Lets a template run inside the present ones, below the recursion limit. -/
def allow (job : Job) (template : Template) : Run Descent := fun s =>
  if job.settings.recursionLimit ≤ s.chain.length then (.error (tooDeep job template s), s)
  else (.ok (.included template), s)

/-- What an element does itself, before the elements inside it run. -/
def perform (job : Job) : Element → Run Descent
  | .text _ s => do
    Run.change (.write s)
    return .nothing
  | .interpolation _ value => do
    let s ← Run.evaluate job fun scope => value.evalText scope
    Run.change (.write s)
    return .nothing
  | .conditional _ condition body otherwise => do
    let holds ← Run.evaluate job fun scope => condition.evalFlag scope
    return .branch (selected holds body otherwise)
  | .assign _ .template name value => do
    let m ← Run.evaluate job fun scope => value.eval scope
    Run.change (.setLocal name (some m))
    return .nothing
  | .assign _ .render name value => do
    let m ← Run.evaluate job fun scope => value.eval scope
    Run.change (.setGlobal name (some m))
    return .nothing
  | .inclusion _ i => do
    match ← inclusionTarget job i with
    | some template => allow job template
    | none => return .nothing

/-- Goes on to what an element leads into. -/
def proceed (job : Job) : Descent → Run Unit
  | .nothing => pure ()
  | .branch elements => visit job elements
  | .included template => Run.nested template (visit job template.root)

/-! ## Equations without a budget -/

section

variable {job : Job} {s : RenderState}

theorem Run.framed_apply (e : Element) (body : Run Unit) (s : RenderState) :
    Run.framed e body s = match body (s.enterElement e) with
      | (.ok (), t) => (.ok (), t.leaveElement)
      | (.error x, t) => (.error (Run.annotate t.frames x), t.leaveElement) := rfl

theorem Run.nested_apply (template : Template) (body : Run Unit) (s : RenderState) :
    Run.nested template body s =
      ((body (s.enterTemplate template)).1,
        (body (s.enterTemplate template)).2.leaveTemplate s.current) := rfl

theorem runAll_of_budget {b : Nat} (h : s.budget job = b) (es : List Element) :
    runAll job (enter job b) es s = visit job es s := by
  rw [visit, h]

theorem enter_of_budget {b : Nat} (h : s.budget job = b) (template : Template) :
    enter job b template s = includeTemplate job template s := by
  rw [includeTemplate, h]

theorem budget_of_kept {t : RenderState} (h : Kept s t) : t.budget job = s.budget job := by
  rw [RenderState.budget, RenderState.budget, h.chain]

theorem allow_apply (template : Template) (s : RenderState) :
    (allow job template >>= proceed job) s = includeTemplate job template s := by
  rw [Run.bind_apply, includeTemplate_apply, allow]
  by_cases h : job.settings.recursionLimit ≤ s.chain.length
  · simp only [if_pos h]
  · simp only [if_neg h, proceed]

/-- Within the budget that a state leaves, an element does its own part and then goes on. -/
theorem runElement_of_budget {b : Nat} (h : s.budget job = b) (e : Element) :
    runElement job (enter job b) e s = Run.framed e (perform job e >>= proceed job) s := by
  rw [runElement.eq_def, Run.framed_apply, Run.framed_apply]
  have hinside : (s.enterElement e).budget job = b := h
  congr 1
  generalize s.enterElement e = u at hinside
  -- element by element; what differs is only where the budget is spent
  cases e with
  | text p content => rfl
  | interpolation p value =>
    simp only [perform, bind_assoc]
    rfl
  | conditional p condition body otherwise =>
    simp only [perform, Run.bind_apply, Run.evaluate_apply]
    cases condition.evalFlag (some (u.value job)) with
    | error x => rfl
    | ok holds =>
      cases holds with
      | true => exact runAll_of_budget hinside body
      | false =>
        cases otherwise with
        | none => rfl
        | some branch => exact runAll_of_budget hinside branch
  | assign p scope name value =>
    cases scope <;>
    · simp only [perform, bind_assoc]
      rfl
  | inclusion p i =>
    simp only [perform, bind_assoc]
    rw [Run.bind_apply, Run.bind_apply]
    have hkept := keeps_inclusionTarget job i u
    generalize inclusionTarget job i u = r at hkept
    rcases r with ⟨x | found, v⟩
    · rfl
    cases found with
    | none => rfl
    | some template =>
      -- finding the target has spent nothing
      have hbudget : v.budget job = b := (budget_of_kept hkept).trans hinside
      exact (enter_of_budget hbudget template).trans (allow_apply template v).symm

theorem visit_nil (job : Job) (s : RenderState) : visit job [] s = (.ok (), s) := rfl

theorem visit_singleton (job : Job) (e : Element) (s : RenderState) :
    visit job [e] s = runElement job (enter job (s.budget job)) e s := by
  unfold visit
  rw [runAll, Run.bind_apply]
  rcases runElement job (enter job (s.budget job)) e s with ⟨_ | _, t⟩ <;> rfl

/-- Elements are visited by running the first one, and then the others. -/
theorem visit_cons (job : Job) (e : Element) (es : List Element) :
    visit job (e :: es) =
      Run.framed e (perform job e >>= proceed job) >>= fun _ => visit job es := by
  funext s
  have hkept : Kept s (runElement job (enter job (s.budget job)) e s).2 :=
    (hereditary_keeps job).runElement ((hereditary_keeps job).enter (s.budget job)) e s
  rw [visit, runAll, Run.bind_apply, Run.bind_apply, ← runElement_of_budget rfl]
  generalize runElement job (enter job (s.budget job)) e s = r at hkept
  rcases r with ⟨_ | _, t⟩
  · rfl
  · exact runAll_of_budget (budget_of_kept hkept) es

theorem visit_append (job : Job) (es fs : List Element) :
    visit job (es ++ fs) = visit job es >>= fun _ => visit job fs := by
  induction es with
  | nil => rfl
  | cons e es ih =>
    rw [List.cons_append, visit_cons, visit_cons, ih, bind_assoc]

end

/-! ## What the own part of an element can do -/

section

variable {job : Job}

theorem Run.Keeps.kept {α : Type} {m : Run α} {r : Except Failure α} {s t : RenderState}
    (h : m.Keeps) (heq : m s = (r, t)) : Kept s t := by
  have hkept := h s
  rw [heq] at hkept
  exact hkept

theorem allow_state (job : Job) (template : Template) (s : RenderState) :
    (allow job template s).2 = s := by
  unfold allow
  split <;> rfl

theorem keeps_allow (template : Template) : (allow job template).Keeps := by
  intro s
  rw [allow_state]
  exact Kept.refl s

theorem keeps_perform (e : Element) : (perform job e).Keeps := by
  cases e with
  | text p content =>
    exact Run.keeps_bind (RenderState.kept_write content) fun _ => Run.keeps_pure _
  | interpolation p value =>
    apply Run.keeps_bind (Run.keeps_evaluate job _)
    intro content
    exact Run.keeps_bind (RenderState.kept_write content) fun _ => Run.keeps_pure _
  | conditional p condition body otherwise =>
    exact Run.keeps_bind (Run.keeps_evaluate job _) fun _ => Run.keeps_pure _
  | assign p scope name value =>
    cases scope with
    | template =>
      apply Run.keeps_bind (Run.keeps_evaluate job _)
      intro m
      exact Run.keeps_bind (RenderState.kept_setLocal name (some m)) fun _ => Run.keeps_pure _
    | render =>
      apply Run.keeps_bind (Run.keeps_evaluate job _)
      intro m
      exact Run.keeps_bind (RenderState.kept_setGlobal name (some m)) fun _ => Run.keeps_pure _
  | inclusion p i =>
    apply Run.keeps_bind (keeps_inclusionTarget job i)
    intro found
    cases found with
    | none => exact Run.keeps_pure _
    | some template => exact keeps_allow template

theorem keeps_proceed (d : Descent) : (proceed job d).Keeps := by
  cases d with
  | nothing => exact Run.keeps_pure ()
  | branch elements => exact keeps_visit elements
  | included template => exact fun s => (Run.restored_nested template (keeps_visit _) s).toKept

/-- All that an element's own part can end in: its outcome and the state it leaves. -/
inductive Performed (job : Job) : Element → RenderState → Except Failure Descent × RenderState → Prop
  | nothing {e : Element} {s t : RenderState} : Performed job e s (.ok .nothing, t)
  | branch {p : Place} {condition : Expr} {body : List Element} {otherwise : Option (List Element)}
      {holds : Bool} {s : RenderState}
      (hholds : condition.evalFlag (some (s.value job)) = .ok holds) :
      Performed job (.conditional p condition body otherwise) s
        (.ok (.branch (selected holds body otherwise)), s)
  | included {p : Place} {i : Inclusion} {template : Template} {s t : RenderState}
      (htarget : inclusionTarget job i s = (.ok (some template), t))
      (hlimit : t.chain.length < job.settings.recursionLimit) :
      Performed job (.inclusion p i) s (.ok (.included template), t)
  | refused {p : Place} {i : Inclusion} {template : Template} {s t : RenderState}
      (htarget : inclusionTarget job i s = (.ok (some template), t))
      (hlimit : job.settings.recursionLimit ≤ t.chain.length) :
      Performed job (.inclusion p i) s (.error (tooDeep job template t), t)
  | failed {e : Element} {s t : RenderState} {x : Failure} (hx : x.Ordinary) :
      Performed job e s (.error x, t)

/-- The inversion of an element's own part: it writes or binds, selects a branch, finds a template
that may run or is refused, or fails. -/
theorem performed (job : Job) (e : Element) (s : RenderState) :
    Performed job e s (perform job e s) := by
  cases e with
  | text p content => exact .nothing
  | interpolation p value =>
    have hraises := Run.raises_evaluate job (fun scope => value.evalText scope) s
    simp only [perform, Run.bind_apply]
    split
    · exact .nothing
    · next x t heq => exact .failed (hraises x t heq)
  | conditional p condition body otherwise =>
    simp only [perform, Run.bind_apply, Run.evaluate_apply]
    cases hholds : condition.evalFlag (some (s.value job)) with
    | ok holds => exact .branch hholds
    | error x => exact .failed (Failure.ordinary_ofEval x)
  | assign p scope name value =>
    have hraises := Run.raises_evaluate job (fun scope => value.eval scope) s
    cases scope <;>
    · simp only [perform, Run.bind_apply]
      split
      · exact .nothing
      · next x t heq => exact .failed (hraises x t heq)
  | inclusion p i =>
    have hraises := raises_inclusionTarget job i s
    simp only [perform, Run.bind_apply]
    split
    · next found t htarget =>
      cases found with
      | none => exact .nothing
      | some template =>
        -- the same test as that of the inclusion itself
        by_cases hlimit : job.settings.recursionLimit ≤ t.chain.length
        · simp only [allow, if_pos hlimit]
          exact .refused htarget hlimit
        · simp only [allow, if_neg hlimit]
          exact .included htarget (Nat.lt_of_not_le hlimit)
    · next x t heq => exact .failed (hraises x t heq)

theorem perform_conditional {p : Place} {condition : Expr} {body : List Element}
    {otherwise : Option (List Element)} {holds : Bool} {s : RenderState}
    (h : condition.evalFlag (some (s.value job)) = .ok holds) :
    perform job (.conditional p condition body otherwise) s =
      (.ok (.branch (selected holds body otherwise)), s) := by
  simp only [perform, Run.bind_apply, Run.evaluate_apply, h]
  rfl

theorem perform_inclusion {p : Place} {i : Inclusion} {template : Template} {s t : RenderState}
    (h : inclusionTarget job i s = (.ok (some template), t)) :
    perform job (.inclusion p i) s = allow job template t := by
  simp only [perform, Run.bind_apply, h]

end

end Stencil

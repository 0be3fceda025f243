import Mathlib.Logic.Relation
import Stencil.Proofs.Render.Visit

/-!
# The moments of a render

A render as a machine that takes one small step after the other. A moment has the state of the render,
what is still to be done, and the failure that is on its way out, if there is one; the next moment is
a function of it. Nothing bounds the number of moments: an inclusion asks for the recursion limit
alone, as it does where templates run. That every render ends, and ends with what `process` gives, is
a theorem; its measure is the pair of the levels of nesting left and the size of the elements to visit.

## Main definitions

* `Task` is something to be done, `Moment` a moment, `Moment.next` the moment after it.
* `Moment.Leads` says that a moment comes after another, `Moment.Reached` that a render comes to it.

## Main results

* `leads_visit`, `leads_done` and `leads_process`: the moments lead to the outcome of a visit, of the
  first elements of a list, and of a render.
* `Moment.next_cases`: what a single step can depend on, and what it can change.
* `Moment.Reached.leads_end`: from every moment that is reached they lead there.
* `Moment.Leads.stops`: no sequence of moments goes on for ever.
-/

namespace Stencil

/-- Something to be done. -/
inductive Task
  | visit (elements : List Element)
  /-- The own part of an element. -/
  | perform (e : Element)
  | leaveElement
  | leaveTemplate (saved : Template)

/-- A moment of a render. -/
structure Moment where
  state : RenderState
  /-- What is still to be done, the next task first. -/
  tasks : List Task
  /-- The failure that is on its way out. -/
  failure : Option Failure

/-- The failure in which a step ends. -/
def failureOf {α : Type} : Except Failure α → Option Failure
  | .ok _ => none
  | .error x => some x

namespace Moment

/-- The moment after an element's own part: what the element leads into is to be done next. -/
def afterPerform (k : List Task) : Except Failure Descent × RenderState → Moment
  | (.ok .nothing, t) => ⟨t, k, none⟩
  | (.ok (.branch elements), t) => ⟨t, .visit elements :: k, none⟩
  | (.ok (.included template), t) =>
    ⟨t.enterTemplate template, .visit template.root :: .leaveTemplate t.current :: k, none⟩
  | (.error x, t) => ⟨t, k, some x⟩

/-- The moment after a moment, until nothing is left to be done. A failure on its way out skips
what would have run, and takes the trace of the innermost element that it leaves. -/
def next (job : Job) : Moment → Option Moment
  | ⟨_, [], _⟩ => none
  | ⟨s, .visit [] :: k, none⟩ => some ⟨s, k, none⟩
  | ⟨s, .visit (e :: es) :: k, none⟩ =>
    some ⟨s.enterElement e, .perform e :: .leaveElement :: .visit es :: k, none⟩
  | ⟨s, .perform e :: k, none⟩ => some (afterPerform k (perform job e s))
  | ⟨s, .visit _ :: k, some x⟩ => some ⟨s, k, some x⟩
  | ⟨s, .perform _ :: k, some x⟩ => some ⟨s, k, some x⟩
  | ⟨s, .leaveElement :: k, x⟩ => some ⟨s.leaveElement, k, x.map (Run.annotate s.frames)⟩
  | ⟨s, .leaveTemplate saved :: k, x⟩ => some ⟨s.leaveTemplate saved, k, x⟩

/-- The moment at which a step has ended and the tasks `k` are left. -/
def after (k : List Task) (r : Except Failure Unit × RenderState) : Moment :=
  ⟨r.2, k, failureOf r.1⟩

/-- A moment comes after another, or is the same. -/
def Leads (job : Job) : Moment → Moment → Prop :=
  Relation.ReflTransGen fun m n => m.next job = some n

/-- The moment at which the main template begins to run. -/
def start (main : Template) (store : Store) : Moment :=
  ⟨.initial main store, [.visit main.root], none⟩

/-- A render of the main template comes to the moment. -/
def Reached (job : Job) (main : Template) (store : Store) (m : Moment) : Prop :=
  Leads job (start main store) m

end Moment

/-! ## Moments lead to the outcome -/

section

variable {job : Job} {s : RenderState} {k : List Task}

theorem Moment.Leads.single {m n : Moment} (h : m.next job = some n) : Leads job m n :=
  Relation.ReflTransGen.single h

theorem Moment.Leads.head {m n o : Moment} (h : m.next job = some n) (hn : Leads job n o) :
    Leads job m o :=
  Relation.ReflTransGen.head h hn

theorem leads_skip (x : Failure) (es : List Element) :
    Moment.Leads job ⟨s, .visit es :: k, some x⟩ ⟨s, k, some x⟩ := by
  cases es <;> exact .single rfl

/-- An element is left on every way out, and there a failure takes its trace. -/
theorem leads_leaveElement (e : Element) (body : Run Unit) :
    Moment.Leads job (.after (.leaveElement :: k) (body (s.enterElement e)))
      (.after k (Run.framed e body s)) := by
  rw [Run.framed_apply]
  -- in one step, with a failure or without one
  rcases body (s.enterElement e) with ⟨_ | _, t⟩ <;> exact .single rfl

theorem leads_leaveTemplate (template : Template) (body : Run Unit) :
    Moment.Leads job (.after (.leaveTemplate s.current :: k) (body (s.enterTemplate template)))
      (.after k (Run.nested template body s)) := by
  rw [Run.nested_apply]
  rcases body (s.enterTemplate template) with ⟨_ | _, t⟩ <;> exact .single rfl

/-- If its branches and the template that it includes are visited, an element is run. -/
theorem leads_perform {e : Element}
    (hbranch : ∀ p condition body otherwise holds k,
      e = .conditional p condition body otherwise →
        Moment.Leads job ⟨s, .visit (selected holds body otherwise) :: k, none⟩
          (.after k (visit job (selected holds body otherwise) s)))
    (hincluded : ∀ template t k, Kept s t → t.chain.length < job.settings.recursionLimit →
      Moment.Leads job ⟨t.enterTemplate template, .visit template.root :: k, none⟩
        (.after k (visit job template.root (t.enterTemplate template)))) :
    Moment.Leads job ⟨s, .perform e :: k, none⟩
      (.after k ((perform job e >>= proceed job) s)) := by
  have hkept : Kept s (perform job e s).2 := keeps_perform e s
  have hperformed := performed job e s
  apply Moment.Leads.head (n := .afterPerform k (perform job e s)) rfl
  rw [Run.bind_apply]
  generalize perform job e s = r at hkept hperformed
  cases hperformed with
  | nothing => exact .refl
  | branch hholds =>
    -- what the condition selects is a part of the element
    exact hbranch _ _ _ _ _ k rfl
  | included htarget hlimit =>
    -- the template is arbitrary, but there is a level of nesting less
    exact (hincluded _ _ _ hkept hlimit).trans (leads_leaveTemplate _ _)
  | refused htarget hlimit => exact .refl
  | failed hx => exact .refl

/-- If its first element is run and the others are visited, a list of elements is visited. -/
theorem leads_cons {e : Element} {es : List Element}
    (hbody : ∀ k, Moment.Leads job ⟨s.enterElement e, .perform e :: k, none⟩
      (.after k ((perform job e >>= proceed job) (s.enterElement e))))
    (hrest : ∀ t, Kept s t →
      Moment.Leads job ⟨t, .visit es :: k, none⟩ (.after k (visit job es t))) :
    Moment.Leads job ⟨s, .visit (e :: es) :: k, none⟩ (.after k (visit job (e :: es) s)) := by
  have hkept : Kept s (Run.framed e (perform job e >>= proceed job) s).2 :=
    Run.keeps_framed e (Run.keeps_bind (keeps_perform e) keeps_proceed) s
  have hframed := (hbody (.leaveElement :: .visit es :: k)).trans
    (leads_leaveElement e (perform job e >>= proceed job))
  refine (Moment.Leads.head rfl hframed).trans ?_
  rw [visit_cons, Run.bind_apply]
  generalize Run.framed e (perform job e >>= proceed job) s = r at hkept
  -- the others are visited, or skipped if the first element has failed
  rcases r with ⟨x | _, t⟩
  · exact leads_skip x es
  · exact hrest t hkept

theorem sizeOf_selected_lt (holds : Bool) (p : Place) (condition : Expr) (body : List Element)
    (otherwise : Option (List Element)) (es : List Element) :
    sizeOf (selected holds body otherwise) <
      sizeOf (Element.conditional p condition body otherwise :: es) := by
  have hsize : sizeOf (Element.conditional p condition body otherwise :: es) =
      1 + (1 + sizeOf p + sizeOf condition + sizeOf body + sizeOf otherwise) + sizeOf es := by
    rw [List.cons.sizeOf_spec, Element.conditional.sizeOf_spec]
  cases holds with
  | true =>
    have hselected : selected true body otherwise = body := rfl
    rw [hselected]
    omega
  | false =>
    cases otherwise with
    | none =>
      have hselected : sizeOf (selected false body none) = 1 := rfl
      omega
    | some branch =>
      have hselected : selected false body (some branch) = branch := rfl
      rw [Option.some.sizeOf_spec] at hsize
      rw [hselected]
      omega

theorem budget_enterTemplate_lt {e : Element} {t : RenderState} {template : Template}
    (hkept : Kept (s.enterElement e) t) (h : t.chain.length < job.settings.recursionLimit) :
    (t.enterTemplate template).budget job < s.budget job := by
  have hchain : t.chain = s.chain := hkept.chain
  simp only [RenderState.budget, RenderState.enterTemplate, List.length_cons, ← hchain]
  omega

/-- **Elements are visited in a finite number of moments**, and these lead to the outcome and the
state that visiting them gives. The elements get smaller, except where a template is included: there
the levels of nesting left get fewer. -/
theorem leads_visit (job : Job) (es : List Element) (s : RenderState) (k : List Task) :
    Moment.Leads job ⟨s, .visit es :: k, none⟩ (.after k (visit job es s)) := by
  cases es with
  | nil => exact .single rfl
  | cons e es =>
    refine leads_cons (fun k => leads_perform ?_ ?_) fun t hkept => leads_visit job es t k
    · intro p condition body otherwise holds k he
      exact leads_visit job (selected holds body otherwise) (s.enterElement e) k
    · intro template t k hkept hlimit
      exact leads_visit job template.root (t.enterTemplate template) k
termination_by (s.budget job, sizeOf es)
decreasing_by
  · subst he
    exact Prod.Lex.right _ (sizeOf_selected_lt holds p condition body otherwise es)
  · exact Prod.Lex.left _ _ (budget_enterTemplate_lt hkept hlimit)
  · rw [budget_of_kept hkept]
    have hsize : sizeOf (e :: es) = 1 + sizeOf e + sizeOf es := List.cons.sizeOf_spec e es
    exact Prod.Lex.right _ (by omega)

/-- When the first elements of a list have been visited, the others are left to be visited. -/
theorem leads_done {done : List Element} {t : RenderState} (rest : List Element)
    (h : visit job done s = (.ok (), t)) :
    Moment.Leads job ⟨s, .visit (done ++ rest) :: k, none⟩ ⟨t, .visit rest :: k, none⟩ := by
  induction done generalizing s with
  | nil =>
    cases h
    exact .refl
  | cons e done ih =>
    have hbody (l : List Task) : Moment.Leads job ⟨s.enterElement e, .perform e :: l, none⟩
        (.after l ((perform job e >>= proceed job) (s.enterElement e))) :=
      leads_perform (fun _ _ _ _ _ l _ => leads_visit job _ (s.enterElement e) l)
        fun template t l _ _ => leads_visit job template.root (t.enterTemplate template) l
    have helement := (hbody (.leaveElement :: .visit (done ++ rest) :: k)).trans
      (leads_leaveElement e (perform job e >>= proceed job))
    rw [visit_cons, Run.bind_apply] at h
    generalize Run.framed e (perform job e >>= proceed job) s = r at h helement
    -- the first element has not failed, for the others have been visited
    rcases r with ⟨_ | _, u⟩
    · cases h
    · exact (Moment.Leads.head rfl helement).trans (ih h)

end

theorem leads_process (job : Job) (main : Template) (store : Store) :
    Moment.Leads job (.start main store) (.after [] (process job main store)) :=
  leads_visit job main.root (.initial main store) []

/-! ## Nothing else happens -/

namespace Moment

variable {job : Job} {main : Template} {store : Store}

/-- All that depends on the job, or can change what is remembered of the sources, is the own part of an
element. -/
theorem next_cases {m n : Moment} (h : m.next job = some n) :
    (∃ s e k, m = ⟨s, .perform e :: k, none⟩ ∧ n = afterPerform k (perform job e s)) ∨
      n.state.store = m.state.store ∧ ∀ job', m.next job' = some n := by
  obtain ⟨s, tasks, failure⟩ := m
  rcases tasks with _ | ⟨task, k⟩
  · cases h
  cases task with
  | perform e =>
    cases failure with
    | none =>
      cases h
      exact .inl ⟨s, e, k, rfl, rfl⟩
    | some x =>
      cases h
      exact .inr ⟨rfl, fun _ => rfl⟩
  | visit es =>
    right
    cases failure <;> cases es <;> cases h <;> exact ⟨rfl, fun _ => rfl⟩
  | leaveElement | leaveTemplate saved =>
    cases h
    exact .inr ⟨rfl, fun _ => rfl⟩

theorem next_after_nil (job : Job) (r : Except Failure Unit × RenderState) :
    (after [] r).next job = none := rfl

/-- The next moment is a function of the present one, so that there is one run alone: what comes
after a moment comes before or after every other such moment. -/
theorem Leads.total {m n o : Moment} (hn : Leads job m n) (ho : Leads job m o) :
    Leads job n o ∨ Leads job o n :=
  Relation.ReflTransGen.total_of_right_unique
    (fun _ _ _ h h' => Option.some.inj (h.symm.trans h')) hn ho

theorem Leads.eq_of_next {m n : Moment} (h : Leads job m n) (hm : m.next job = none) : m = n := by
  rcases h.cases_head with rfl | ⟨o, ho, -⟩
  · rfl
  · rw [hm] at ho
    cases ho

/-- From every moment that a render comes to, it comes to its outcome. -/
theorem Reached.leads_end {m : Moment} (h : Reached job main store m) :
    Leads job m (after [] (process job main store)) := by
  rcases h.total (leads_process job main store) with hend | hback
  · exact hend
  · rw [← hback.eq_of_next (next_after_nil _ _)]
    exact .refl

/-- A run that ends does not go on for ever. -/
theorem Leads.stops {m n : Moment} (h : Leads job m n) (hn : n.next job = none)
    (run : Nat → Moment) (hrun : run 0 = m) : ∃ i, (run i).next job ≠ some (run (i + 1)) := by
  induction h using Relation.ReflTransGen.head_induction_on generalizing run with
  | refl =>
    -- no step is left to take
    refine ⟨0, ?_⟩
    rw [hrun, hn]
    exact nofun
  | head hstep _ ih =>
    by_cases hnext : (run 0).next job = some (run 1)
    · -- the run takes the one step there is, and the rest of it stops
      rw [hrun, hstep] at hnext
      obtain ⟨i, hi⟩ := ih (fun i => run (i + 1)) (Option.some.inj hnext).symm
      exact ⟨i + 1, hi⟩
    · exact ⟨0, hnext⟩

end Moment

end Stencil

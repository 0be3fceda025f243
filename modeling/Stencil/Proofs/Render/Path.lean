import Stencil.Proofs.Render.Moment

/-!
# Execution paths

The stack of running elements is a path through the templates. It begins with an element of the main
template; above an element stands one of the branch that it has just selected, in the same template,
or one of the template that it has found and includes. The path is defined by what has been run: its
first element comes after those of the main template that have been visited, and every other one
after those of its own list.

## Main definitions

* `Begun` says that a list of elements begins to be visited, `ExecutionPath` that an element begins
  to run, inside the elements of a stack.
* `Stage` lists the moments of a render by what has been run so far.
* `Template.Contains` says that an element stands in a template, at any depth.

## Main results

* `ExecutionPath.reached`: the render comes to the element in which an execution path ends.
* `Moment.Reached.stage`: every moment that a render comes to is one of these.
* `Stage.kept`: since a list or an element of it has begun, the state has been kept.
* `process_error_iff`: a render fails where the innermost element of a path does, with its trace.
-/

namespace Stencil

section

variable (job : Job) (main : Template) (store : Store)

mutual

/-- Elements of a template begin to be visited inside the elements of a stack, in a state in which
the given tasks are left for afterwards. -/
inductive Begun : List Frame → Template → List Element → RenderState → List Task → Prop
  | main : Begun [] main main.root (.initial main store) []
  | branch {f : Frame} {fs : List Frame} {s : RenderState} {k : List Task} {p : Place}
      {condition : Expr} {body : List Element} {otherwise : Option (List Element)} {holds : Bool}
      (hpath : ExecutionPath f fs s k)
      (he : f.element = .conditional p condition body otherwise)
      (hholds : condition.evalFlag (some (s.value job)) = .ok holds) :
      Begun (f :: fs) f.template (selected holds body otherwise) s k
  | included {f : Frame} {fs : List Frame} {s t : RenderState} {k : List Task} {p : Place}
      {i : Inclusion} {template : Template} (hpath : ExecutionPath f fs s k)
      (he : f.element = .inclusion p i)
      (htarget : inclusionTarget job i s = (.ok (some template), t))
      (hlimit : t.chain.length < job.settings.recursionLimit) :
      Begun (f :: fs) template template.root (t.enterTemplate template)
        (.leaveTemplate t.current :: k)

/-- An element begins to run inside the elements of a stack, behind those of its list that have been
visited. -/
inductive ExecutionPath : Frame → List Frame → RenderState → List Task → Prop
  | element {fs : List Frame} {template : Template} {done rest : List Element} {e : Element}
      {s t : RenderState} {k : List Task}
      (hlist : Begun fs template (done ++ e :: rest) s k)
      (hdone : visit job done s = (.ok (), t)) :
      ExecutionPath ⟨e, template⟩ fs (t.enterElement e) (.leaveElement :: .visit rest :: k)

end

end

/-! ## The state on a path -/

/-- The stack of running elements, the template that is running, and the bound on the nesting of
inclusions: every name on the chain of inclusions has a local scope, and the main template has one. -/
structure RenderState.Placed (job : Job) (fs : List Frame) (template : Template)
    (s : RenderState) : Prop where
  frames : s.frames = fs
  current : s.current = template
  scopes : s.locals.length = s.chain.length + 1
  limit : s.chain.length ≤ job.settings.recursionLimit

namespace RenderState

variable {job : Job} {fs : List Frame} {template : Template} {s t : RenderState}

theorem Placed.of_kept (h : s.Placed job fs template) (hkept : Kept s t) :
    t.Placed job fs template where
  frames := hkept.frames.trans h.frames
  current := hkept.current.trans h.current
  scopes := by
    have hscopes : s.locals ≠ [] := List.ne_nil_of_length_eq_add_one h.scopes
    rw [hkept.scopeCount hscopes, hkept.chain, h.scopes]
  limit := hkept.chain ▸ h.limit

theorem Placed.enterElement (h : s.Placed job fs template) (e : Element) :
    (s.enterElement e).Placed job (⟨e, template⟩ :: fs) template where
  frames := by rw [RenderState.enterElement, h.frames, h.current]
  current := h.current
  scopes := h.scopes
  limit := h.limit

theorem Placed.enterTemplate (h : s.Placed job fs template)
    (hlimit : s.chain.length < job.settings.recursionLimit) (included : Template) :
    (s.enterTemplate included).Placed job fs included where
  frames := h.frames
  current := rfl
  scopes := congrArg (· + 1) h.scopes
  limit := hlimit

/-- What is kept while an element runs is kept from before it on until it is left. -/
theorem kept_leaveElement {e : Element} (h : Kept (s.enterElement e) t) :
    Kept s t.leaveElement :=
  { h with frames := congrArg List.tail h.frames }

theorem kept_leaveTemplate (h : Kept (s.enterTemplate template) t) :
    Kept s (t.leaveTemplate s.current) :=
  { h with
    current := rfl
    chain := congrArg List.tail h.chain
    outerScopes := congrArg List.tail h.outerScopes
    scopeCount := fun _ => congrArg List.length h.outerScopes }

end RenderState

section

variable {job : Job} {main : Template} {store : Store}

mutual

theorem Begun.placed {fs : List Frame} {template : Template} {es : List Element}
    {s : RenderState} {k : List Task} (h : Begun job main store fs template es s k) :
    s.Placed job fs template := by
  cases h with
  | main => exact ⟨rfl, rfl, rfl, Nat.zero_le _⟩
  | branch hpath => exact hpath.placed
  | included hpath he htarget hlimit =>
    -- the inclusion was not refused, so that the chain has room for one name more
    have hkept := (keeps_inclusionTarget job _).kept htarget
    exact (hpath.placed.of_kept hkept).enterTemplate hlimit _
termination_by 2 * fs.length

theorem ExecutionPath.placed {f : Frame} {fs : List Frame} {s : RenderState} {k : List Task}
    (h : ExecutionPath job main store f fs s k) : s.Placed job (f :: fs) f.template := by
  cases h with
  | element hlist hdone =>
    -- the elements in front of this one have kept what their list began with
    exact (hlist.placed.of_kept ((keeps_visit _).kept hdone)).enterElement _
termination_by 2 * fs.length + 1

end

end

/-! ## Paths are run -/

section

variable {job : Job} {main : Template} {store : Store}

mutual

/-- Where elements begin to be visited, the render has come to visit them. -/
theorem Begun.reached {fs : List Frame} {template : Template} {es : List Element}
    {s : RenderState} {k : List Task} (h : Begun job main store fs template es s k) :
    Moment.Reached job main store ⟨s, .visit es :: k, none⟩ := by
  cases h with
  | main => exact .refl
  | branch hpath he hholds =>
    refine hpath.reached.tail ?_
    rw [Moment.next, he, perform_conditional hholds]
    rfl
  | included hpath he htarget hlimit =>
    refine hpath.reached.tail ?_
    rw [Moment.next, he, perform_inclusion htarget, allow, if_neg (Nat.not_le_of_lt hlimit)]
    rfl
termination_by 2 * fs.length

/-- Where an element begins to run, the render has come to its own part. -/
theorem ExecutionPath.reached {f : Frame} {fs : List Frame} {s : RenderState} {k : List Task}
    (h : ExecutionPath job main store f fs s k) :
    Moment.Reached job main store ⟨s, .perform f.element :: k, none⟩ := by
  cases h with
  | element hlist hdone => exact (hlist.reached.trans (leads_done _ hdone)).tail rfl
termination_by 2 * fs.length + 1

end

end

/-! ## The elements on a path -/

/-- An element stands in a template: in its root, or in a branch of a conditional that does. -/
inductive Template.Contains (template : Template) : Element → Prop
  | root {e : Element} (he : e ∈ template.root) : Contains template e
  | branch {p : Place} {condition : Expr} {body : List Element}
      {otherwise : Option (List Element)} {e : Element} (holds : Bool)
      (hparent : Contains template (.conditional p condition body otherwise))
      (he : e ∈ selected holds body otherwise) : Contains template e

section

variable {job : Job} {main : Template} {store : Store}

mutual

/-- Elements that begin to be visited stand in their template, and so do those around them, which
are no texts. -/
theorem Begun.contains {fs : List Frame} {template : Template} {es : List Element}
    {s : RenderState} {k : List Task} (h : Begun job main store fs template es s k) :
    (∀ e ∈ es, template.Contains e) ∧
      ∀ g ∈ fs, g.template.Contains g.element ∧ g.element.isShown = true := by
  cases h with
  | main => exact ⟨fun e he => .root he, nofun⟩
  | branch hpath he hholds =>
    obtain ⟨hcontains, houter⟩ := hpath.contains
    refine ⟨fun e hmem => ?_, List.forall_mem_cons.mpr ⟨⟨hcontains, ?_⟩, houter⟩⟩
    · rw [he] at hcontains
      exact .branch _ hcontains hmem
    · rw [he]
      rfl
  | included hpath he htarget hlimit =>
    obtain ⟨hcontains, houter⟩ := hpath.contains
    refine ⟨fun e hmem => .root hmem, List.forall_mem_cons.mpr ⟨⟨hcontains, ?_⟩, houter⟩⟩
    rw [he]
    rfl
termination_by 2 * fs.length

theorem ExecutionPath.contains {f : Frame} {fs : List Frame} {s : RenderState} {k : List Task}
    (h : ExecutionPath job main store f fs s k) :
    f.template.Contains f.element ∧
      ∀ g ∈ fs, g.template.Contains g.element ∧ g.element.isShown = true := by
  cases h with
  | element hlist hdone =>
    obtain ⟨hcontains, houter⟩ := hlist.contains
    exact ⟨hcontains _ (by simp), houter⟩
termination_by 2 * fs.length + 1

end

theorem ExecutionPath.traceLines_eq {f : Frame} {fs : List Frame} {s : RenderState}
    {k : List Task} (h : ExecutionPath job main store f fs s k) :
    traceLines (f :: fs) =
      f.traceLine "Failed at" :: fs.map (·.traceLine "Reached through") := by
  -- texts are left out of a trace, but none of them has an element inside
  have hshown : fs.filter (·.element.isShown) = fs :=
    List.filter_eq_self.mpr fun g hg => (h.contains.2 g hg).2
  rw [traceLines, hshown]

end

/-! ## The moments of a render -/

section

variable (job : Job) (main : Template) (store : Store)

/-- A failure that the innermost element of an execution path has raised, with the trace of that
path. -/
def Failure.Blamed (x : Failure) : Prop :=
  ∃ f fs s k y, ExecutionPath job main store f fs s k ∧ (perform job f.element s).1 = .error y ∧
    x = Run.annotate (f :: fs) y

/-- The moments that a render comes to. -/
inductive Stage : Moment → Prop
  | visiting {fs : List Frame} {template : Template} {done rest : List Element}
      {s t : RenderState} {k : List Task}
      (hlist : Begun job main store fs template (done ++ rest) s k)
      (hdone : visit job done s = (.ok (), t)) : Stage ⟨t, .visit rest :: k, none⟩
  | performing {f : Frame} {fs : List Frame} {s : RenderState} {k : List Task}
      (hpath : ExecutionPath job main store f fs s k) :
      Stage ⟨s, .perform f.element :: k, none⟩
  | visited {fs : List Frame} {template : Template} {es : List Element} {s t : RenderState}
      {k : List Task} (hlist : Begun job main store fs template es s k)
      (hdone : visit job es s = (.ok (), t)) : Stage ⟨t, k, none⟩
  | performed {f : Frame} {fs : List Frame} {s t : RenderState} {k : List Task}
      (hpath : ExecutionPath job main store f fs s k)
      (hdone : (perform job f.element >>= proceed job) s = (.ok (), t)) : Stage ⟨t, k, none⟩
  /-- A failure has just been raised. -/
  | raised {f : Frame} {fs : List Frame} {s t : RenderState} {k : List Task} {x : Failure}
      (hpath : ExecutionPath job main store f fs s k)
      (hraised : perform job f.element s = (.error x, t)) : Stage ⟨t, k, some x⟩
  /-- A failure skips the rest of a list. -/
  | skipping {fs : List Frame} {template : Template} {es rest : List Element}
      {s t : RenderState} {k : List Task} {x : Failure}
      (hlist : Begun job main store fs template es s k) (hkept : Kept s t)
      (hx : x.Blamed job main store) : Stage ⟨t, .visit rest :: k, some x⟩
  /-- A failure has left a list. -/
  | skipped {fs : List Frame} {template : Template} {es : List Element} {s t : RenderState}
      {k : List Task} {x : Failure} (hlist : Begun job main store fs template es s k)
      (hkept : Kept s t) (hx : x.Blamed job main store) : Stage ⟨t, k, some x⟩
  /-- A failure leaves an element around the one that raised it. -/
  | leaving {f : Frame} {fs : List Frame} {s t : RenderState} {k : List Task} {x : Failure}
      (hpath : ExecutionPath job main store f fs s k) (hkept : Kept s t)
      (hx : x.Blamed job main store) : Stage ⟨t, k, some x⟩

end

section

variable {job : Job} {main : Template} {store : Store}

theorem annotate_annotate (fs gs : List Frame) (x : Failure) :
    Run.annotate fs (Run.annotate gs x) = Run.annotate gs x := by
  cases x with
  | run e trace => cases trace <;> rfl
  | _ => rfl

theorem eq_run_of_annotate {fs : List Frame} {y : Failure} {e : RunError}
    {trace : Option (List String)} (h : Run.annotate fs y = .run e trace) :
    ∃ trace', y = .run e trace' := by
  cases y with
  | run e' trace' =>
    cases trace' <;> cases h <;> exact ⟨_, rfl⟩
  | _ => cases h

theorem Failure.Blamed.annotate {x : Failure} (h : x.Blamed job main store) (fs : List Frame) :
    Run.annotate fs x = x := by
  obtain ⟨f, gs, s, k, y, -, -, rfl⟩ := h
  exact annotate_annotate fs (f :: gs) y

/-- One element more has been visited when its own part and what it leads into are done. -/
theorem visit_snoc {done : List Element} {e : Element} {s t u : RenderState}
    (hdone : visit job done s = (.ok (), t))
    (he : (perform job e >>= proceed job) (t.enterElement e) = (.ok (), u)) :
    visit job (done ++ [e]) s = (.ok (), u.leaveElement) := by
  rw [visit_append, Run.bind_apply, hdone]
  dsimp only
  rw [visit_cons, Run.bind_apply, Run.framed_apply, he]
  rfl

section

variable {f : Frame} {fs : List Frame} {template : Template} {es : List Element}
  {s t : RenderState} {k : List Task} {m : Moment} {x : Failure}

theorem Begun.stage (hlist : Begun job main store fs template es s k) :
    Stage job main store ⟨s, .visit es :: k, none⟩ := by
  -- none of its elements has been visited
  rw [← List.nil_append es] at hlist
  exact .visiting hlist (visit_nil job s)

/-- An element that has run is left, and the elements behind it are to be visited. -/
theorem stage_of_performed (hpath : ExecutionPath job main store f fs s k)
    (hdone : (perform job f.element >>= proceed job) s = (.ok (), t))
    (hm : Moment.next job ⟨t, k, none⟩ = some m) : Stage job main store m := by
  cases hpath with
  | element hlist hbefore =>
    cases hm
    -- the element joins those of its list that are done
    rw [List.append_cons] at hlist
    exact .visiting hlist (visit_snoc hbefore hdone)

/-- A list that has been visited is what its element led into, or the main template, which ends. -/
theorem stage_of_visited (hlist : Begun job main store fs template es s k)
    (hdone : visit job es s = (.ok (), t)) (hm : Moment.next job ⟨t, k, none⟩ = some m) :
    Stage job main store m := by
  cases hlist with
  | main => cases hm
  | branch hpath he hholds =>
    refine stage_of_performed hpath ?_ hm
    rw [he, Run.bind_apply, perform_conditional hholds]
    exact hdone
  | included hpath he htarget hlimit =>
    cases hm
    -- leaving the template ends what the inclusion went on to
    refine .performed hpath ?_
    rw [he, Run.bind_apply, perform_inclusion htarget, allow, if_neg (Nat.not_le_of_lt hlimit)]
    dsimp only [proceed]
    rw [Run.nested_apply, hdone]

/-- A failure that leaves the innermost element takes the trace of the path. -/
theorem stage_of_raised (hpath : ExecutionPath job main store f fs s k)
    (hraised : perform job f.element s = (.error x, t))
    (hm : Moment.next job ⟨t, k, some x⟩ = some m) : Stage job main store m := by
  have hkept := (keeps_perform f.element).kept hraised
  have hframes := (hpath.placed.of_kept hkept).frames
  have hblamed : (Run.annotate t.frames x).Blamed job main store :=
    ⟨f, fs, s, k, x, hpath, by rw [hraised], by rw [hframes]⟩
  cases hpath with
  | element hlist hbefore =>
    cases hm
    exact .skipping hlist
      (((keeps_visit _).kept hbefore).trans (RenderState.kept_leaveElement hkept)) hblamed

/-- A failure that leaves an element around that one keeps its trace. -/
theorem stage_of_leaving (hpath : ExecutionPath job main store f fs s k) (hkept : Kept s t)
    (hx : x.Blamed job main store) (hm : Moment.next job ⟨t, k, some x⟩ = some m) :
    Stage job main store m := by
  have hsame := hx.annotate t.frames
  cases hpath with
  | element hlist hbefore =>
    cases hm
    rw [Option.map_some, hsame]
    exact .skipping hlist
      (((keeps_visit _).kept hbefore).trans (RenderState.kept_leaveElement hkept)) hx

theorem stage_of_skipped (hlist : Begun job main store fs template es s k) (hkept : Kept s t)
    (hx : x.Blamed job main store) (hm : Moment.next job ⟨t, k, some x⟩ = some m) :
    Stage job main store m := by
  cases hlist with
  | main => cases hm
  | branch hpath he hholds => exact stage_of_leaving hpath hkept hx hm
  | included hpath he htarget hlimit =>
    cases hm
    exact .leaving hpath
      (((keeps_inclusionTarget job _).kept htarget).trans (RenderState.kept_leaveTemplate hkept)) hx

/-- An element that does its own part is left, or leads into a list, or raises a failure. -/
theorem stage_of_performing (hpath : ExecutionPath job main store f fs s k) :
    Stage job main store (.afterPerform k (perform job f.element s)) := by
  have hperformed := performed job f.element s
  have hproceed := Run.bind_apply s (perform job f.element) (proceed job)
  generalize hr : perform job f.element s = r at hperformed hproceed ⊢
  -- the element is named, so that its kind shows in the frame, too
  generalize he : f.element = e at hperformed
  cases hperformed with
  | nothing => exact .performed hpath hproceed
  | branch hholds =>
    exact (Begun.branch hpath he hholds).stage
  | included htarget hlimit =>
    exact (Begun.included hpath he htarget hlimit).stage
  | refused htarget hlimit => exact .raised hpath hr
  | failed hx => exact .raised hpath hr

end

/-- One step leads from a moment of the list to another. -/
theorem stage_next {m n : Moment} (h : Stage job main store m) (hn : m.next job = some n) :
    Stage job main store n := by
  cases h with
  | @visiting fs template done rest s t k hlist hdone =>
    cases rest with
    | nil =>
      -- the list is done
      cases hn
      rw [List.append_nil] at hlist
      exact .visited hlist hdone
    | cons e rest =>
      cases hn
      exact .performing (.element hlist hdone)
  | performing hpath =>
    cases hn
    exact stage_of_performing hpath
  | visited hlist hdone => exact stage_of_visited hlist hdone hn
  | performed hpath hdone => exact stage_of_performed hpath hdone hn
  | raised hpath hraised => exact stage_of_raised hpath hraised hn
  | @skipping fs template es rest s t k x hlist hkept hx =>
    cases rest <;>
    · cases hn
      exact .skipped hlist hkept hx
  | skipped hlist hkept hx => exact stage_of_skipped hlist hkept hx hn
  | leaving hpath hkept hx => exact stage_of_leaving hpath hkept hx hn

/-- Every moment that a render comes to is one of the list. -/
theorem Moment.Reached.stage {m : Moment} (h : Reached job main store m) :
    Stage job main store m := by
  induction h with
  | refl => exact Begun.main.stage
  | tail _ hstep ih => exact stage_next ih hstep

/-- At every moment the state has been kept since a list or an element began. -/
theorem Stage.kept {m : Moment} (h : Stage job main store m) :
    (∃ fs template es s k, Begun job main store fs template es s k ∧ Kept s m.state) ∨
      ∃ f fs s k, ExecutionPath job main store f fs s k ∧ Kept s m.state := by
  cases h with
  | visiting hlist hdone => exact .inl ⟨_, _, _, _, _, hlist, (keeps_visit _).kept hdone⟩
  | performing hpath => exact .inr ⟨_, _, _, _, hpath, Kept.refl _⟩
  | visited hlist hdone => exact .inl ⟨_, _, _, _, _, hlist, (keeps_visit _).kept hdone⟩
  | performed hpath hdone =>
    exact .inr ⟨_, _, _, _, hpath, (Run.keeps_bind (keeps_perform _) keeps_proceed).kept hdone⟩
  | raised hpath hraised => exact .inr ⟨_, _, _, _, hpath, (keeps_perform _).kept hraised⟩
  | skipping hlist hkept hx => exact .inl ⟨_, _, _, _, _, hlist, hkept⟩
  | skipped hlist hkept hx => exact .inl ⟨_, _, _, _, _, hlist, hkept⟩
  | leaving hpath hkept hx => exact .inr ⟨_, _, _, _, hpath, hkept⟩

theorem Stage.placed {m : Moment} (h : Stage job main store m) :
    m.state.Placed job m.state.frames m.state.current := by
  rcases h.kept with ⟨fs, template, es, s, k, hlist, hkept⟩ | ⟨f, fs, s, k, hpath, hkept⟩
  · have hplaced := hlist.placed.of_kept hkept
    exact { hplaced with frames := rfl, current := rfl }
  · have hplaced := hpath.placed.of_kept hkept
    exact { hplaced with frames := rfl, current := rfl }

/-! ## The tasks that are left -/

theorem ExecutionPath.tasks_ne {f : Frame} {fs : List Frame} {s : RenderState} {k : List Task}
    (h : ExecutionPath job main store f fs s k) (e : Element) (l : List Task) :
    k ≠ .perform e :: l := by
  -- the first task that is left is that of leaving the element
  cases h
  exact nofun

theorem Begun.tasks_ne {fs : List Frame} {template : Template} {es : List Element}
    {s : RenderState} {k : List Task} (h : Begun job main store fs template es s k) (e : Element)
    (l : List Task) : k ≠ .perform e :: l := by
  cases h with
  | main => exact nofun
  | branch hpath => exact hpath.tasks_ne e l
  | included hpath => exact nofun

/-- An element's own part comes next only where an execution path leads to the element. -/
theorem Stage.performing_path {m : Moment} (h : Stage job main store m) (hm : m.failure = none)
    {e : Element} {k : List Task} (htasks : m.tasks = .perform e :: k) :
    ∃ f fs, f.element = e ∧ ExecutionPath job main store f fs m.state k := by
  cases h with
  | visiting hlist hdone => cases htasks
  | performing hpath =>
    cases htasks
    exact ⟨_, _, rfl, hpath⟩
  | visited hlist hdone => exact absurd htasks (hlist.tasks_ne e k)
  | performed hpath hdone => exact absurd htasks (hpath.tasks_ne e k)
  | raised | skipping | skipped | leaving => cases hm

/-! ## Failures leave a render -/

/-- A failure in which a render ends was raised by the innermost element of an execution path. -/
theorem blamed_of_process {x : Failure} (h : (process job main store).1 = .error x) :
    x.Blamed job main store := by
  have hstage := Moment.Reached.stage (leads_process job main store)
  rw [Moment.after, h] at hstage
  -- nothing is left to be done, which rules out the moments at which elements are still to be left
  generalize (process job main store).2 = t at hstage
  generalize hk : ([] : List Task) = k at hstage
  cases hstage with
  | raised hpath => cases hpath; cases hk
  | skipping => cases hk
  | skipped hlist hkept hx => exact hx
  | leaving hpath hkept hx => exact hx

/-- A failure that no element can add a trace to stays on its way out as it is. -/
theorem Moment.Leads.failure {m n : Moment} {x : Failure} (h : Leads job m n)
    (hm : m.failure = some x) (hx : ∀ fs, Run.annotate fs x = x) : n.failure = some x := by
  induction h with
  | refl => exact hm
  | @tail n o _ hstep hn =>
    obtain ⟨s, tasks, failure⟩ := n
    subst hn
    match tasks with
    | .visit [] :: k => cases hstep; rfl
    | .visit (_ :: _) :: k => cases hstep; rfl
    | .perform _ :: k => cases hstep; rfl
    | .leaveTemplate saved :: k => cases hstep; rfl
    | .leaveElement :: k =>
      cases hstep
      exact congrArg some (hx s.frames)

/-- What the innermost element of an execution path raises takes its trace and leaves the render. -/
theorem ExecutionPath.process_of_raised {f : Frame} {fs : List Frame} {s : RenderState}
    {k : List Task} {y : Failure} (hpath : ExecutionPath job main store f fs s k)
    (hperform : (perform job f.element s).1 = .error y) :
    (process job main store).1 = .error (Run.annotate (f :: fs) y) := by
  have hreached := hpath.reached
  have hkept : Kept s (perform job f.element s).2 := keeps_perform f.element s
  have hframes := (hpath.placed.of_kept hkept).frames
  have hraised : Moment.next job ⟨s, .perform f.element :: k, none⟩ =
      some ⟨(perform job f.element s).2, k, some y⟩ := by
    rw [Moment.next]
    generalize perform job f.element s = r at hperform
    rcases r with ⟨_ | _, t⟩ <;> cases hperform
    rfl
  cases hpath with
  | element hlist hdone =>
    -- on leaving the element the failure takes its trace, and it keeps that from there on
    have hleft := (hreached.tail hraised).tail (Eq.refl (Moment.next job _))
    rw [Option.map_some, hframes] at hleft
    have hend := (Moment.Reached.leads_end hleft).failure rfl fun gs => annotate_annotate gs _ y
    rw [Moment.after] at hend
    generalize (process job main store).1 = r at hend
    cases r with
    | ok _ => cases hend
    | error x => exact congrArg Except.error (Option.some.inj hend)

/-- **A render fails with what the innermost element of an execution path has raised**, under the
trace of that path, and with nothing else. -/
theorem process_error_iff {x : Failure} :
    (process job main store).1 = .error x ↔ x.Blamed job main store := by
  constructor
  · exact blamed_of_process
  · rintro ⟨f, fs, s, k, y, hpath, hperform, rfl⟩
    exact hpath.process_of_raised hperform

end

end Stencil

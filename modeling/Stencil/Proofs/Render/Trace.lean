import Stencil.Proofs.Render.Path

/-!
# Traces tell where a render failed

The stack of running elements is an execution path at every moment of a render, and the template that
is running is the one in which the running element stands. An error takes its trace from that stack
where it arises, at the innermost element, and no element around that one changes it: the trace has a
line for each element on the path to the failure, and each line names the template of its element.

## Main results

* `Moment.Reached.path` and `Moment.Reached.performing`: the stack at a moment.
* `stack_is_execution_path`: the stack is an execution path, and a trace lists it.
-/

namespace Stencil

section

variable {job : Job} {main : Template} {store : Store}

/-- The stack on which a list begins to be visited is itself an execution path. -/
theorem Begun.path {fs : List Frame} {template : Template} {es : List Element} {s : RenderState}
    {k : List Task} (h : Begun job main store fs template es s k) :
    fs = [] ∨ ∃ f gs t l, fs = f :: gs ∧ ExecutionPath job main store f gs t l := by
  cases h with
  | main => exact .inl rfl
  | branch hpath => exact .inr ⟨_, _, _, _, rfl, hpath⟩
  | included hpath => exact .inr ⟨_, _, _, _, rfl, hpath⟩

theorem ExecutionPath.contains_all {f : Frame} {fs : List Frame} {s : RenderState}
    {k : List Task} (h : ExecutionPath job main store f fs s k) :
    ∀ g ∈ f :: fs, g.template.Contains g.element :=
  List.forall_mem_cons.mpr ⟨h.contains.1, fun g hg => (h.contains.2 g hg).1⟩

/-! ## The stack at a moment -/

namespace Moment

variable {m : Moment}

/-- At every moment the list that is being visited, or the element that is running, stands in the
running template, inside the elements of the stack. -/
theorem Reached.running (h : Reached job main store m) :
    (∃ es s k, Begun job main store m.state.frames m.state.current es s k) ∨
      ∃ f fs s k, m.state.frames = f :: fs ∧ m.state.current = f.template ∧
        ExecutionPath job main store f fs s k := by
  rcases h.stage.kept with ⟨fs, template, es, s, k, hlist, hkept⟩ | ⟨f, fs, s, k, hpath, hkept⟩
  · have hplaced := hlist.placed.of_kept hkept
    rw [hplaced.frames, hplaced.current]
    exact .inl ⟨es, s, k, hlist⟩
  · have hplaced := hpath.placed.of_kept hkept
    exact .inr ⟨f, fs, s, k, hplaced.frames, hplaced.current, hpath⟩

theorem Reached.path (h : Reached job main store m) :
    m.state.frames = [] ∨
      ∃ f fs s k, m.state.frames = f :: fs ∧ ExecutionPath job main store f fs s k := by
  rcases h.running with ⟨es, s, k, hlist⟩ | ⟨f, fs, s, k, hframes, -, hpath⟩
  · exact hlist.path
  · exact .inr ⟨f, fs, s, k, hframes, hpath⟩

theorem Reached.contains (h : Reached job main store m) :
    ∀ g ∈ m.state.frames, g.template.Contains g.element := by
  rcases h.path with hnone | ⟨f, fs, s, k, hframes, hpath⟩
  · rw [hnone]
    exact List.forall_mem_nil _
  · rw [hframes]
    exact hpath.contains_all

/-- The element whose own part comes next is the innermost one of the stack, and stands in the
running template. -/
theorem Reached.performing (h : Reached job main store m) (hm : m.failure = none) {e : Element}
    {k : List Task} (htasks : m.tasks = .perform e :: k) :
    ∃ fs, m.state.frames = ⟨e, m.state.current⟩ :: fs ∧
      ExecutionPath job main store ⟨e, m.state.current⟩ fs m.state k ∧
        m.state.current.Contains e := by
  obtain ⟨f, fs, rfl, hpath⟩ := h.stage.performing_path hm htasks
  -- the path gives the template of the element, which is the running one
  have hframe : f = ⟨f.element, m.state.current⟩ := by rw [hpath.placed.current]
  have hcontains := hpath.contains.1
  rw [← hpath.placed.current] at hcontains
  rw [← hframe]
  exact ⟨fs, hpath.placed.frames, hpath, hcontains⟩

end Moment

/-! ## Traces -/

theorem trace_of_perform {e : Element} {s : RenderState} {x : RunError}
    {trace : Option (List String)} (h : (perform job e s).1 = .error (.run x trace)) :
    trace = none := by
  have hperformed := performed job e s
  generalize perform job e s = r at h hperformed
  -- a refusal has none, and no ordinary failure has one
  cases hperformed with
  | nothing | branch | included => cases h
  | refused htarget hlimit =>
    cases h
    rfl
  | failed hordinary =>
    cases h
    cases hordinary <;> rfl

/-- The trace of an error that leaves a render lists the path to the element that raised it. -/
theorem trace_of_process {x : RunError} {trace : Option (List String)}
    (h : (process job main store).1 = .error (.run x trace)) :
    ∃ f fs s k, ExecutionPath job main store f fs s k ∧
      (perform job f.element s).1 = .error (.run x none) ∧
      trace = some (f.traceLine "Failed at" :: fs.map (·.traceLine "Reached through")) := by
  obtain ⟨f, fs, s, k, y, hpath, hperform, hy⟩ := process_error_iff.mp h
  obtain ⟨inner, rfl⟩ := eq_run_of_annotate hy.symm
  -- the error arose without a trace, so that it took the one of the path
  cases trace_of_perform hperform
  rw [Run.annotate, hpath.traceLines_eq] at hy
  cases hy
  exact ⟨f, fs, s, k, hpath, hperform, rfl⟩

end

/-- **The stack of running elements is an execution path, and a trace lists it.** At every moment of
a render the stack is empty or an execution path, whose elements all stand in the templates it names;
the list of elements that is being visited or the element that is running belongs to the running
template; and the element whose own part comes next is the innermost one, in the running template. An
error of a running template leaves the render with the trace that it got where it arose: a line for
the element that failed and one for each element around it, from the inside outwards. -/
theorem stack_is_execution_path (job : Job) (main : Template) (store : Store) :
    (∀ m, Moment.Reached job main store m →
      (m.state.frames = [] ∨
        ∃ f fs s k, m.state.frames = f :: fs ∧ ExecutionPath job main store f fs s k ∧
          Moment.Reached job main store ⟨s, .perform f.element :: k, none⟩) ∧
      (∀ g ∈ m.state.frames, g.template.Contains g.element) ∧
      ((∃ es s k, Begun job main store m.state.frames m.state.current es s k) ∨
        ∃ f fs s k, m.state.frames = f :: fs ∧ m.state.current = f.template ∧
          ExecutionPath job main store f fs s k) ∧
      ∀ e k, m.failure = none → m.tasks = .perform e :: k →
        ∃ fs, m.state.frames = ⟨e, m.state.current⟩ :: fs ∧
          ExecutionPath job main store ⟨e, m.state.current⟩ fs m.state k ∧
          m.state.current.Contains e) ∧
      ∀ x trace, (process job main store).1 = .error (.run x trace) →
        ∃ f fs s k, Moment.Reached job main store ⟨s, .perform f.element :: k, none⟩ ∧
          ExecutionPath job main store f fs s k ∧ s.frames = f :: fs ∧
          (perform job f.element s).1 = .error (.run x none) ∧
          trace = some (f.traceLine "Failed at" :: fs.map (·.traceLine "Reached through")) ∧
          ∀ g ∈ f :: fs, g.template.Contains g.element := by
  constructor
  · intro m h
    refine ⟨h.path.imp id ?_, h.contains, h.running,
      fun e k hm htasks => h.performing hm htasks⟩
    rintro ⟨f, fs, s, k, hframes, hpath⟩
    exact ⟨f, fs, s, k, hframes, hpath, hpath.reached⟩
  · intro x trace h
    obtain ⟨f, fs, s, k, hpath, hperform, htrace⟩ := trace_of_process h
    exact ⟨f, fs, s, k, hpath.reached, hpath, hpath.placed.frames, hperform, htrace,
      hpath.contains_all⟩

/-- The template `a`, which writes a variable. -/
def writer : Template :=
  ⟨"a", [.interpolation ⟨1, 1⟩ (.var "x")], "dict:a", some "utf-8", true⟩

/-- The template `main`, which includes `a` in a branch. -/
def brancher : Template :=
  ⟨"main", [.conditional ⟨1, 1⟩ (.bool true)
    [.inclusion ⟨1, 11⟩ ⟨.str "a", .default none, .default true, .default false⟩] none],
    "dict:main", some "utf-8", true⟩

/-- A store that has loaded `a`. -/
def writerStore : Store := ⟨.empty, "utf-8", [(⟨"a", "utf-8", true⟩, writer)]⟩

/-- The path to the variable that `a` writes. -/
def writerTrace : List String :=
  ["- Failed at: $\x7bx\x7d [in template \"a\" at line 1, column 1]",
    "- Reached through: #include \"a\" [in template \"main\" at line 1, column 11]",
    "- Reached through: #if true [in template \"main\" at line 1, column 1]"]

/-- A variable that is not defined is blamed on the path through the branch and the inclusion. -/
theorem trace_through_branch_and_inclusion :
    ∃ f fs s k, ExecutionPath ⟨"main", .defaults, []⟩ brancher writerStore f fs s k ∧
      f.template.Contains f.element ∧
      some writerTrace =
        some (f.traceLine "Failed at" :: fs.map (·.traceLine "Reached through")) := by
  obtain ⟨-, hfails⟩ := stack_is_execution_path ⟨"main", .defaults, []⟩ brancher writerStore
  obtain ⟨f, fs, s, k, -, hpath, -, -, htrace, hcontains⟩ :=
    hfails (.value (.undefined "x")) (some writerTrace) rfl
  exact ⟨f, fs, s, k, hpath, hcontains f List.mem_cons_self, htrace⟩

end Stencil

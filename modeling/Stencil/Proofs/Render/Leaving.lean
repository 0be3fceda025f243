import Stencil.Proofs.Render.Demand
import Stencil.Proofs.Render.Trace
import Stencil.Proofs.Store.Unloadable

/-!
# How failures leave a render

A failure arises in the own part of one element. On its way out it passes every element around that
one and leaves every template that is being included, and none of them changes it: it leaves the
render as it arose, but for the trace that it takes from the innermost element. A loading error is no
error of a running template; it arises already wrapped, in the error of the inclusion that asked for
the template, under the text that names the target there.

## Main definitions

* `Inclusion.Unloadable` says why the target of an inclusion cannot be loaded.
* `Raised` lists what an element's own part fails with.
* `Moment.Performs` is the moment of an element's own part.

## Main results

* `perform_error_iff`: an element's own part fails with what is listed.
* `process_raised_iff`: a render fails with what the own part of an element has failed with.
* `loading_errors_wrapped_once`: a loading error leaves a render wrapped in one error of an inclusion.
-/

namespace Stencil

/-- The inclusion asks for a template that is not remembered and cannot be loaded. -/
structure Inclusion.Unloadable (job : Job) (i : Inclusion) (s : RenderState) (d : Demand)
    (r : Request) (reason : LoadReason) : Prop where
  asks : i.Asks job s d
  request : (d.query job).request s.store.defaultEncoding = .ok r
  unremembered : s.store.remembered? r = none
  sources : s.store.loader.Unloadable r d.ignoreMissing reason

/-- What the own part of an element fails with. -/
inductive Raised (job : Job) : Element → RenderState → Failure → Prop
  | interpolation {p : Place} {value : Expr} {s : RenderState} {x : EvalError}
      (h : value.evalText (some (s.value job)) = .error x) :
      Raised job (.interpolation p value) s (.ofEval x)
  | condition {p : Place} {condition : Expr} {body : List Element}
      {otherwise : Option (List Element)} {s : RenderState} {x : EvalError}
      (h : condition.evalFlag (some (s.value job)) = .error x) :
      Raised job (.conditional p condition body otherwise) s (.ofEval x)
  | assigned {p : Place} {scope : AssignScope} {name : String} {value : Expr} {s : RenderState}
      {x : EvalError} (h : value.eval (some (s.value job)) = .error x) :
      Raised job (.assign p scope name value) s (.ofEval x)
  /-- An expression of an inclusion has no value, or its target has a malformed name. -/
  | unasked {p : Place} {i : Inclusion} {s : RenderState} {x : Failure} (h : i.Unasked job s x) :
      Raised job (.inclusion p i) s x
  /-- The loading error is wrapped where it arises. -/
  | unloadable {p : Place} {i : Inclusion} {s : RenderState} {d : Demand} {r : Request}
      {reason : LoadReason} (h : i.Unloadable job s d r reason) :
      Raised job (.inclusion p i) s (.run (.inclusion d.name (some ⟨r.name, reason⟩)) none)
  /-- The store fails, but with no loading error. -/
  | unanswered {p : Place} {i : Inclusion} {s : RenderState} {d : Demand} {x : Failure}
      (hasks : i.Asks job s d) (h : (s.store.ask (d.query job)).1 = .error x)
      (hx : ∀ e, x ≠ .load e) : Raised job (.inclusion p i) s x
  | refused {p : Place} {i : Inclusion} {s : RenderState} {d : Demand} {template : Template}
      (hasks : i.Asks job s d) (h : (s.store.ask (d.query job)).1 = .ok (some template))
      (hlimit : job.settings.recursionLimit ≤ s.chain.length) :
      Raised job (.inclusion p i) s (tooDeep job template s)

/-- The own part of the element comes next, and nothing has failed. -/
structure Moment.Performs (job : Job) (main : Template) (store : Store) (m : Moment) (e : Element) :
    Prop where
  reached : Moment.Reached job main store m
  sound : m.failure = none
  task : ∃ k, m.tasks = .perform e :: k

/-! ## What the own part of an element fails with -/

section

variable {job : Job} {e : Element} {i : Inclusion} {p : Place} {s : RenderState} {d : Demand}
  {x : Failure}

theorem includeFailure_of_ne {name : String} (hx : ∀ e, x ≠ .load e) : includeFailure name x = x := by
  cases x with
  | load e => exact absurd rfl (hx e)
  | _ => rfl

theorem Inclusion.Asks.perform_fst (h : i.Asks job s d) :
    (perform job (.inclusion p i) s).1 = match (s.store.ask (d.query job)).1 with
      | .error x => .error (includeFailure d.name x)
      | .ok none => .ok .nothing
      | .ok (some template) => (allow job template s).1 := by
  rw [perform, Run.bind_apply, h.inclusionTarget_eq, Demand.request_apply]
  generalize s.store.ask (d.query job) = a
  obtain ⟨_ | _ | template, store⟩ := a
  · rfl
  · rfl
  · -- what the store remembers now does not matter at the recursion limit
    change (allow job template { s with store }).1 = (allow job template s).1
    unfold allow
    split <;> rfl

theorem Inclusion.Unasked.perform_fst (h : i.Unasked job s x) :
    (perform job (.inclusion p i) s).1 = .error x := by
  rw [perform, Run.bind_apply, h.inclusionTarget_eq]

theorem Inclusion.Asks.raised_of_answer (h : i.Asks job s d)
    (hx : (s.store.ask (d.query job)).1 = .error x) :
    Raised job (.inclusion p i) s (includeFailure d.name x) := by
  by_cases hload : ∃ e, x = .load e
  · obtain ⟨e, rfl⟩ := hload
    obtain ⟨r, reason, hrequest, hnew, hsources, rfl⟩ := Store.ask_load_error_iff.mp hx
    exact .unloadable ⟨h, hrequest, hnew, hsources⟩
  · rw [not_exists] at hload
    rw [includeFailure_of_ne hload]
    exact .unanswered h hx hload

/-- An inclusion fails with what is listed for inclusions. -/
theorem perform_inclusion_error_iff :
    (perform job (.inclusion p i) s).1 = .error x ↔ Raised job (.inclusion p i) s x := by
  constructor
  · intro h
    rcases Inclusion.asks_or_unasked job i s with ⟨d, hasks⟩ | ⟨y, hunasked⟩
    · rw [hasks.perform_fst] at h
      cases hanswer : (s.store.ask (d.query job)).1 with
      | error y =>
        rw [hanswer] at h
        cases h
        exact hasks.raised_of_answer hanswer
      | ok found =>
        rw [hanswer] at h
        cases found with
        | none => cases h
        | some template =>
          -- a template that was found is refused at the recursion limit alone
          by_cases hlimit : job.settings.recursionLimit ≤ s.chain.length
          · simp only [allow, if_pos hlimit] at h
            cases h
            exact .refused hasks hanswer hlimit
          · simp only [allow, if_neg hlimit] at h
            cases h
    · rw [hunasked.perform_fst] at h
      cases h
      exact .unasked hunasked
  · intro h
    cases h with
    | unasked hunasked => exact hunasked.perform_fst
    | unloadable h =>
      have hanswer := Store.ask_load_error_iff.mpr
        ⟨_, _, h.request, h.unremembered, h.sources, rfl⟩
      rw [h.asks.perform_fst, hanswer]
      rfl
    | unanswered hasks hanswer hx =>
      rw [hasks.perform_fst, hanswer]
      exact congrArg Except.error (includeFailure_of_ne hx)
    | refused hasks hanswer hlimit =>
      rw [hasks.perform_fst, hanswer]
      simp only [allow, if_pos hlimit]

/-- What begins with an evaluation and cannot fail afterwards fails as the evaluation does. -/
theorem Run.error_of_evaluated {α β : Type} {m : Run α} {r : Except EvalError α} {f : α → Run β}
    (h : m s = (r.mapError .ofEval, s)) (hf : ∀ a, ∃ b, (f a s).1 = .ok b) :
    ((m >>= f) s).1 = .error x ↔ ∃ y, r = .error y ∧ x = .ofEval y := by
  rw [Run.bind_of_evaluated h]
  cases r with
  | error y =>
    constructor
    · intro h
      cases h
      exact ⟨y, rfl, rfl⟩
    · rintro ⟨z, hz, rfl⟩
      cases hz
      rfl
  | ok a =>
    obtain ⟨b, hb⟩ := hf a
    dsimp only
    rw [hb]
    constructor
    · exact nofun
    · rintro ⟨z, hz, -⟩
      cases hz

/-- **The own part of an element fails with what is listed**, and with nothing else. -/
theorem perform_error_iff : (perform job e s).1 = .error x ↔ Raised job e s x := by
  cases e with
  | text p content => exact ⟨nofun, nofun⟩
  | interpolation p value =>
    refine (Run.error_of_evaluated (Run.evaluate_apply s job _) fun a => ⟨.nothing, rfl⟩).trans ?_
    constructor
    · rintro ⟨y, hy, rfl⟩
      exact .interpolation hy
    · intro h
      cases h with
      | interpolation hy => exact ⟨_, hy, rfl⟩
  | conditional p condition body otherwise =>
    refine (Run.error_of_evaluated (Run.evaluate_apply s job _) fun a => ⟨_, rfl⟩).trans ?_
    constructor
    · rintro ⟨y, hy, rfl⟩
      exact .condition hy
    · intro h
      cases h with
      | condition hy => exact ⟨_, hy, rfl⟩
  | assign p scope name value =>
    have hevaluated : (perform job (.assign p scope name value) s).1 = .error x ↔
        ∃ y, value.eval (some (s.value job)) = .error y ∧ x = .ofEval y := by
      cases scope <;>
      · exact Run.error_of_evaluated (Run.evaluate_apply s job _) fun a => ⟨.nothing, rfl⟩
    refine hevaluated.trans ?_
    constructor
    · rintro ⟨y, hy, rfl⟩
      exact .assigned hy
    · intro h
      cases h with
      | assigned hy => exact ⟨_, hy, rfl⟩
  | inclusion p i => exact perform_inclusion_error_iff

/-- What is raised is no bare error of loading or parsing. -/
theorem Raised.not_bare (h : Raised job e s x) : (∀ y, x ≠ .load y) ∧ ∀ y, x ≠ .parse y := by
  have hperform := perform_error_iff.mpr h
  have hperformed := performed job e s
  generalize perform job e s = r at hperform hperformed
  -- a refusal is an error of a running template, and the other failures are ordinary
  constructor <;>
  · rintro y rfl
    cases hperformed with
    | nothing | branch | included | refused => cases hperform
    | failed hordinary =>
      cases hperform
      cases hordinary

/-- A trace makes no bare error of another one. -/
theorem bare_of_annotate {fs : List Frame} :
    (∀ y, Run.annotate fs x = .load y → x = .load y) ∧
      ∀ y, Run.annotate fs x = .parse y → x = .parse y := by
  cases x with
  | run e trace =>
    constructor <;>
    · intro y h
      cases trace <;> cases h
  | _ => exact ⟨fun y h => h, fun y h => h⟩

/-- The error of an inclusion is raised where the target of the inclusion cannot be loaded. -/
theorem Raised.inclusion_iff {name : String} {cause : Option LoadError}
    {trace : Option (List String)} :
    Raised job e s (.run (.inclusion name cause) trace) ↔
      ∃ p i d r reason, e = .inclusion p i ∧ i.Unloadable job s d r reason ∧
        name = d.name ∧ cause = some ⟨r.name, reason⟩ ∧ trace = none := by
  constructor
  · intro h
    generalize hx : Failure.run (.inclusion name cause) trace = x at h
    cases h with
    | @interpolation _ _ _ y | @condition _ _ _ _ _ y | @assigned _ _ _ _ _ y =>
      cases y <;> cases hx
    | unasked hunasked =>
      cases hunasked with
      | @target y | @attributes _ _ y => cases y <;> cases hx
      | name => cases hx
    | unloadable h =>
      cases hx
      exact ⟨_, _, _, _, _, rfl, h, rfl, rfl, rfl⟩
    | unanswered hasks hanswer hload =>
      -- the store knows of no inclusions
      subst hx
      cases Store.get_error hanswer with
      | folding hfolding => cases hfolding
    | refused => cases hx
  · rintro ⟨p, i, d, r, reason, rfl, h, rfl, rfl, rfl⟩
    exact .unloadable h

end

/-! ## What leaves a render -/

section

variable {job : Job} {main : Template} {store : Store}

/-- **A render fails with what the own part of an element has failed with**, and no element or
inclusion around that one changes it: an error of a running template takes the trace of the stack. -/
theorem process_raised_iff {x : Failure} :
    (process job main store).1 = .error x ↔
      ∃ m e y, Moment.Performs job main store m e ∧ Raised job e m.state y ∧
        x = Run.annotate m.state.frames y := by
  rw [process_error_iff]
  constructor
  · rintro ⟨f, fs, s, k, y, hpath, hperform, rfl⟩
    refine ⟨⟨s, .perform f.element :: k, none⟩, f.element, y, ⟨hpath.reached, rfl, k, rfl⟩,
      perform_error_iff.mp hperform, ?_⟩
    rw [hpath.placed.frames]
  · rintro ⟨m, e, y, ⟨hreached, hsound, k, htask⟩, hraised, rfl⟩
    obtain ⟨fs, hframes, hpath, -⟩ := hreached.performing hsound htask
    rw [hframes]
    exact ⟨_, fs, _, k, y, hpath, perform_error_iff.mpr hraised, rfl⟩

end

/-- **A loading error leaves a render wrapped once.** A render fails with the error of an inclusion
exactly when it comes to an inclusion whose target cannot be loaded: the cause is that one loading
error, the name is the text that the target has evaluated to, and the trace is that of the stack
there, however deeply inclusions are nested. No bare error of loading or of parsing leaves a render.
Everything else that an element raises, a malformed name, a refusal at the recursion limit or an
error of evaluation, leaves it as it was raised, but for the trace. -/
theorem loading_errors_wrapped_once (job : Job) (main : Template) (store : Store) :
    (∀ name cause trace,
      (process job main store).1 = .error (.run (.inclusion name cause) trace) ↔
        ∃ m p i d r reason, Moment.Performs job main store m (.inclusion p i) ∧
          i.Unloadable job m.state d r reason ∧ name = d.name ∧ cause = some ⟨r.name, reason⟩ ∧
          trace = some (traceLines m.state.frames)) ∧
      (∀ x, (process job main store).1 ≠ .error (.load x)) ∧
      (∀ x, (process job main store).1 ≠ .error (.parse x)) ∧
      ∀ x, (process job main store).1 = .error x ↔
        ∃ m e y, Moment.Performs job main store m e ∧ Raised job e m.state y ∧
          x = Run.annotate m.state.frames y := by
  refine ⟨fun name cause trace => ?_, fun x h => ?_, fun x h => ?_, fun x => process_raised_iff⟩
  · rw [process_raised_iff]
    constructor
    · rintro ⟨m, e, y, hperforms, hraised, hy⟩
      obtain ⟨trace', rfl⟩ := eq_run_of_annotate hy.symm
      obtain ⟨p, i, d, r, reason, rfl, hunloadable, rfl, rfl, rfl⟩ := Raised.inclusion_iff.mp hraised
      cases hy
      exact ⟨m, p, i, d, r, reason, hperforms, hunloadable, rfl, rfl, rfl⟩
    · rintro ⟨m, p, i, d, r, reason, hperforms, hunloadable, rfl, rfl, rfl⟩
      exact ⟨m, _, _, hperforms, .unloadable hunloadable, rfl⟩
  · obtain ⟨m, e, y, -, hraised, hy⟩ := process_raised_iff.mp h
    exact hraised.not_bare.1 x (bare_of_annotate.1 x hy.symm)
  · obtain ⟨m, e, y, -, hraised, hy⟩ := process_raised_iff.mp h
    exact hraised.not_bare.2 x (bare_of_annotate.2 x hy.symm)

/-- The template `main`, which includes `a`, which includes `b`. -/
def includer (name target : String) : Template :=
  ⟨name, [.inclusion ⟨1, 1⟩ ⟨.str target, .default none, .default true, .default false⟩],
    "dict:" ++ name, some "utf-8", true⟩

/-- A store that has loaded `a`, and whose source for `b` is no text. -/
def garbledStore : Store :=
  ⟨Loader.empty.put "b" (.ok [255]), "utf-8", [(⟨"a", "utf-8", true⟩, includer "a" "b")]⟩

/-- The path to the inclusion of `b`. -/
def garbledTrace : List String :=
  ["- Failed at: #include \"b\" [in template \"a\" at line 1, column 1]",
    "- Reached through: #include \"a\" [in template \"main\" at line 1, column 1]"]

/-- Bytes that are no text are the cause of an error of the inner inclusion, and of no other. -/
theorem garbled_wrapped_once :
    ∃ m p i d r reason,
      Moment.Performs ⟨"main", .defaults, []⟩ (includer "main" "a") garbledStore m
        (.inclusion p i) ∧
      i.Unloadable ⟨"main", .defaults, []⟩ m.state d r reason ∧ "b" = d.name ∧
      some ⟨"b", .undecodable "utf-8" ⟨"utf-8", 0, 1, 255, "invalid start byte"⟩⟩ =
        some (LoadError.mk r.name reason) ∧
      some garbledTrace = some (traceLines m.state.frames) :=
  ((loading_errors_wrapped_once ⟨"main", .defaults, []⟩ (includer "main" "a") garbledStore).1
    _ _ _).mp rfl

end Stencil

import Stencil.Proofs.Render.Path

/-!
# Renders end, and inclusions are nested no deeper than allowed

Templates may include each other in circles, or compute the names of what they include. A render ends
all the same: at every moment the chain of inclusions has at most as many names as the recursion limit
says, and there is one local scope more than names. The only moment at which an inclusion is refused is
that of an inclusion which has found its target when the chain is full.

## Main definitions

* `Moment.AtLimit` is the moment of an inclusion that has found its target when the chain is full.

## Main results

* `render_ends_within_limit`: renders end, inclusions are nested no deeper than allowed, and exactly
  those that would be nested deeper are refused.
-/

namespace Stencil

/-- What stays fixed when a template is rendered with settings and data. -/
def Job.of (main : Template) (settings : Settings) (data : List (String × Value)) : Job :=
  ⟨main.name, settings, data⟩

/-- An inclusion has found its target, and the chain of inclusions has all the names it may have. -/
def Moment.AtLimit (job : Job) (template : Template) (m : Moment) : Prop :=
  m.failure = none ∧ m.state.chain.length = job.settings.recursionLimit ∧
    ∃ p i k t, m.tasks = .perform (.inclusion p i) :: k ∧
      inclusionTarget job i m.state = (.ok (some template), t)

/-- The names from the main template along the chain of inclusions to a template. -/
def Moment.namesTo (job : Job) (template : Template) (m : Moment) : List String :=
  job.main :: m.state.chain.reverse ++ [template.name]

section

variable {job : Job} {main : Template} {store : Store} {m n : Moment}

theorem Moment.Reached.bounds (h : Reached job main store m) :
    m.state.chain.length ≤ job.settings.recursionLimit ∧
      m.state.locals.length = m.state.chain.length + 1 :=
  ⟨h.stage.placed.limit, h.stage.placed.scopes⟩

/-- An element's own part fails at the recursion limit alone with a refusal. -/
theorem perform_tooDeep {e : Element} {s t : RenderState} {limit : Int} {chain : List String}
    {trace : Option (List String)}
    (h : perform job e s = (.error (.run (.tooDeep limit chain) trace), t)) :
    ∃ p i template, e = .inclusion p i ∧ inclusionTarget job i s = (.ok (some template), t) ∧
      job.settings.recursionLimit ≤ t.chain.length ∧
      Failure.run (.tooDeep limit chain) trace = tooDeep job template t := by
  have hperformed := performed job e s
  rw [h] at hperformed
  generalize hx : Failure.run (.tooDeep limit chain) trace = x at hperformed
  cases hperformed with
  | refused htarget hlimit => exact ⟨_, _, _, rfl, htarget, hlimit, rfl⟩
  | failed hordinary =>
    -- no ordinary failure is a refusal
    subst hx
    cases hordinary

theorem tooDeep_eq (job : Job) (template : Template) (m : Moment) {t : RenderState}
    (hkept : Kept m.state t) :
    tooDeep job template t =
      .run (.tooDeep job.settings.recursionLimit (m.namesTo job template)) none := by
  rw [tooDeep, hkept.chain]
  rfl

/-- A failure is raised in the own part of an element. -/
theorem Moment.raised_cases {x : Failure} (hn : m.next job = some n) (hm : m.failure = none)
    (hx : n.failure = some x) :
    ∃ e k t, m.tasks = .perform e :: k ∧ perform job e m.state = (.error x, t) := by
  obtain ⟨s, tasks, failure⟩ := m
  subst hm
  match tasks with
  | .visit [] :: k => cases hn; cases hx
  | .visit (e :: es) :: k => cases hn; cases hx
  | .leaveElement :: k => cases hn; cases hx
  | .leaveTemplate saved :: k => cases hn; cases hx
  | .perform e :: k =>
    cases hn
    refine ⟨e, k, ?_⟩
    generalize perform job e s = r at hx
    rcases r with ⟨y | d, t⟩
    · cases hx
      exact ⟨t, rfl, rfl⟩
    · cases d <;> cases hx

theorem Moment.AtLimit.next {template : Template} (h : m.AtLimit job template) :
    ∃ t k, m.next job = some
      ⟨t, k, some (.run (.tooDeep job.settings.recursionLimit (m.namesTo job template)) none)⟩ := by
  obtain ⟨s, tasks, failure⟩ := m
  obtain ⟨hfailure, hlimit, p, i, k, t, htasks, htarget⟩ := h
  cases hfailure
  cases htasks
  have hkept := (keeps_inclusionTarget job i).kept htarget
  refine ⟨t, k, ?_⟩
  rw [Moment.next, perform_inclusion htarget, allow, if_pos (hkept.chain ▸ Nat.le_of_eq hlimit.symm),
    tooDeep_eq job template ⟨s, .perform (.inclusion p i) :: k, none⟩ hkept]
  rfl

/-- A refusal is raised exactly at the limit, and names what led to it. -/
theorem Moment.Reached.tooDeep_iff (h : Reached job main store m) (hn : m.next job = some n)
    (limit : Int) (chain : List String) :
    (m.failure = none ∧ ∃ trace, n.failure = some (.run (.tooDeep limit chain) trace)) ↔
      ∃ template, m.AtLimit job template ∧ limit = job.settings.recursionLimit ∧
        chain = m.namesTo job template := by
  constructor
  · rintro ⟨hm, trace, hx⟩
    obtain ⟨e, k, t, htasks, hperform⟩ := raised_cases hn hm hx
    obtain ⟨p, i, template, rfl, htarget, hlimit, heq⟩ := perform_tooDeep hperform
    have hkept := (keeps_inclusionTarget job i).kept htarget
    rw [tooDeep_eq job template m hkept] at heq
    cases heq
    -- the chain is at most full at every moment, and it is not less than full at a refusal
    rw [hkept.chain] at hlimit
    exact ⟨template, ⟨hm, Nat.le_antisymm h.bounds.1 hlimit, p, i, k, t, htasks, htarget⟩, rfl, rfl⟩
  · rintro ⟨template, hlimit, rfl, rfl⟩
    obtain ⟨t, k, hnext⟩ := hlimit.next
    cases Option.some.inj (hn.symm.trans hnext)
    exact ⟨hlimit.1, none, rfl⟩

theorem Moment.namesTo_length {template : Template} (h : m.AtLimit job template) :
    (m.namesTo job template).length = job.settings.recursionLimit + 2 := by
  simp only [namesTo, List.length_append, List.length_cons, List.length_reverse, h.2.1,
    List.length_nil]

/-- A render ends in a refusal exactly when it comes to an inclusion at the limit. -/
theorem process_tooDeep_iff (limit : Int) (chain : List String) :
    (∃ trace, (process job main store).1 = .error (.run (.tooDeep limit chain) trace)) ↔
      ∃ m template, Moment.Reached job main store m ∧ m.AtLimit job template ∧
        limit = job.settings.recursionLimit ∧ chain = m.namesTo job template := by
  constructor
  · -- the element that is blamed raised the refusal, at a moment of the render
    rintro ⟨trace, hx⟩
    obtain ⟨f, fs, s, k, y, hpath, hperform, hy⟩ := process_error_iff.mp hx
    obtain ⟨trace', rfl⟩ := eq_run_of_annotate hy.symm
    have hraised : (Moment.afterPerform k (perform job f.element s)).failure =
        some (.run (.tooDeep limit chain) trace') := by
      generalize perform job f.element s = r at hperform
      rcases r with ⟨_ | _, t⟩ <;> cases hperform
      rfl
    obtain ⟨template, hlimit⟩ :=
      (Moment.Reached.tooDeep_iff hpath.reached rfl limit chain).mp ⟨rfl, trace', hraised⟩
    exact ⟨_, template, hpath.reached, hlimit⟩
  · -- the refusal is raised there, and is what the render ends in
    rintro ⟨m, template, hreached, hlimit, rfl, rfl⟩
    obtain ⟨_, _, hnext⟩ := hlimit.next
    obtain ⟨e, k, t, htasks, hperform⟩ := Moment.raised_cases hnext hlimit.1 rfl
    obtain ⟨f, fs, rfl, hpath⟩ := hreached.stage.performing_path hlimit.1 htasks
    exact ⟨_, hpath.process_of_raised (congrArg Prod.fst hperform)⟩

end

/-! ## The theorem on nesting -/

/-- **Renders end, and inclusions are nested no deeper than allowed**, whatever the loader holds and
the names of inclusions compute to. The moments of a render lead to its outcome, and no sequence of
them goes on for ever. At every moment the chain of inclusions is at most as long as the recursion
limit, and there is one local scope more. An inclusion is refused exactly when it has found its
target and the chain is that long; the refusal names the main template, the chain and the refused
template, and is what the render ends in. -/
theorem render_ends_within_limit (main : Template) (settings : Settings)
    (data : List (String × Value)) (store : Store) :
    Moment.Leads (.of main settings data) (.start main store)
        (.after [] (process (.of main settings data) main store)) ∧
      (∀ run : Nat → Moment, run 0 = .start main store →
        ∃ i, (run i).next (.of main settings data) ≠ some (run (i + 1))) ∧
      (∀ m, Moment.Reached (.of main settings data) main store m →
        m.state.chain.length ≤ settings.recursionLimit ∧
          m.state.locals.length = m.state.chain.length + 1) ∧
      (∀ m n, Moment.Reached (.of main settings data) main store m →
        m.next (.of main settings data) = some n → ∀ limit chain,
        (m.failure = none ∧ ∃ trace, n.failure = some (.run (.tooDeep limit chain) trace)) ↔
          ∃ template, m.AtLimit (.of main settings data) template ∧
            limit = settings.recursionLimit ∧ chain.length = settings.recursionLimit + 2 ∧
            chain = main.name :: m.state.chain.reverse ++ [template.name]) ∧
      ∀ limit chain,
        (∃ trace, (process (.of main settings data) main store).1 =
          .error (.run (.tooDeep limit chain) trace)) ↔
          ∃ m template, Moment.Reached (.of main settings data) main store m ∧
            m.AtLimit (.of main settings data) template ∧
            limit = settings.recursionLimit ∧ chain.length = settings.recursionLimit + 2 ∧
            chain = main.name :: m.state.chain.reverse ++ [template.name] := by
  refine ⟨leads_process _ _ _, fun run hrun => ?_, fun m hm => hm.bounds, ?_, ?_⟩
  · exact (leads_process _ _ _).stops (Moment.next_after_nil _ _) run hrun
  · intro m n hm hn limit chain
    rw [hm.tooDeep_iff hn]
    constructor
    · rintro ⟨template, hlimit, rfl, rfl⟩
      exact ⟨template, hlimit, rfl, Moment.namesTo_length hlimit, rfl⟩
    · rintro ⟨template, hlimit, rfl, -, rfl⟩
      exact ⟨template, hlimit, rfl, rfl⟩
  · intro limit chain
    rw [process_tooDeep_iff]
    constructor
    · rintro ⟨m, template, hm, hlimit, rfl, rfl⟩
      exact ⟨m, template, hm, hlimit, rfl, Moment.namesTo_length hlimit, rfl⟩
    · rintro ⟨m, template, hm, hlimit, rfl, -, rfl⟩
      exact ⟨m, template, hm, hlimit, rfl, rfl⟩

/-- The template `a`, which includes itself. -/
def circle : Template :=
  ⟨"a", [.inclusion ⟨1, 1⟩ ⟨.str "a", .default none, .default true, .default false⟩], "dict:a",
    some "utf-8", true⟩

/-- A store that has loaded `a`. -/
def circleStore : Store := ⟨.empty, "utf-8", [(⟨"a", "utf-8", true⟩, circle)]⟩

/-- An included template may include no other. -/
def Settings.shallow : Settings := { recursionLimit := 1 }

/-- A template that includes itself is refused when it is to run inside itself a second time. -/
theorem render_of_circle_ends :
    ∃ m template, Moment.Reached (.of circle .shallow []) circle circleStore m ∧
      m.state.chain.length ≤ 1 ∧ m.AtLimit (.of circle .shallow []) template ∧
      ["a", "a", "a"] = "a" :: m.state.chain.reverse ++ [template.name] := by
  obtain ⟨-, -, hbounds, -, hrefused⟩ := render_ends_within_limit circle .shallow [] circleStore
  obtain ⟨m, template, hm, hlimit, -, -, hchain⟩ :=
    (hrefused 1 ["a", "a", "a"]).mp ⟨some ["- Failed at: #include \"a\" [in template \"a\" at line 1, column 1]",
      "- Reached through: #include \"a\" [in template \"a\" at line 1, column 1]"],
      rfl⟩
  exact ⟨m, template, hm, (hbounds m hm).1, hlimit, hchain⟩

end Stencil

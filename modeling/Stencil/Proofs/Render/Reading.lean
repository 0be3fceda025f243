import Stencil.Proofs.Expr.Variables
import Stencil.Proofs.Render.Demand

/-!
# What a render reads of the data

A render reads of its data the variables that are written in expressions: in those of the main template
and, since the names of included templates may be computed, in those of all templates that its store can
give. On data that agree on these it does the same step by step, whether it succeeds or fails, and ends
in the same state. The store gives at every moment of a render what it gave before it.

## Main definitions

* `Template.names` lists the variables in the expressions of a template.
* `Store.Gives` are the templates that a store can answer requests with.
* `Run.Same` relates steps that do the same while the store gives only templates of some kind.

## Main results

* `Store.gives_of_ask`: asking a store does not change what it gives.
* `Store.Mirrors.gives_iff`: a store that mirrors its sources gives what can be loaded from them.
* `same_runAll` and `same_enter`: elements and included templates do the same with both data.
* `process_reads_names`: a render reads the variables that are written in templates.
-/

namespace Stencil

/-! ## The variables of a template -/

/-- The variables in the expression of an attribute. -/
def Attr.names {α : Type} (a : Attr α) : List String :=
  a.expression.elim [] Expr.names

/-- The variables in the expressions of an inclusion. -/
def Inclusion.names (i : Inclusion) : List String :=
  i.target.names ++ (i.encoding.names ++ (i.parse.names ++ i.ignoreMissing.names))

namespace Element

mutual

/-- The variables in the expressions of an element. -/
def names : Element → List String
  | text _ _ => []
  | interpolation _ e => e.names
  | conditional _ c body none => c.names ++ namesAll body
  | conditional _ c body (some otherwise) => c.names ++ (namesAll body ++ namesAll otherwise)
  | assign _ _ _ e => e.names
  | inclusion _ i => i.names

/-- The variables in the expressions of a list of elements. -/
def namesAll : List Element → List String
  | [] => []
  | e :: es => names e ++ namesAll es

end

end Element

/-- The variables in the expressions of a template. -/
def Template.names (t : Template) : List String := Element.namesAll t.root

/-! ## The templates of a store -/

namespace Store

/-- The store can answer a request with this template, from its memory or from its sources. -/
def Gives (s : Store) (t : Template) : Prop :=
  ∃ r, s.remembered? r = some t ∨ load s.loader r = .ok (some t)

variable {s : Store} {q : Query} {t : Template}

/-- The answer to a question is a template that the store gives. -/
theorem gives_of_answer (h : (s.ask q).1 = .ok (some t)) : s.Gives t := by
  have hanswered := s.answered q
  generalize s.ask q = a at h hanswered
  cases hanswered with
  | refused => cases h
  | @remembered r u _ hu =>
    cases h
    exact ⟨r, .inl hu⟩
  | @loaded r u _ _ hload =>
    cases h
    exact ⟨r, .inr hload⟩
  | unfound _ _ _ hanswer => exact absurd h (hanswer t)

/-- **Asking a store does not change what it gives**: it remembers only what it gave before. -/
theorem gives_of_ask (h : (s.ask q).2.Gives t) : s.Gives t := by
  have hanswered := s.answered q
  generalize s.ask q = a at h hanswered
  cases hanswered with
  | refused => exact h
  | remembered => exact h
  | unfound => exact h
  | @loaded r u _ hnew hload =>
    obtain ⟨other, hother | hother⟩ := h
    · rw [remembered?_remember hnew] at hother
      split at hother
      · cases hother
        exact ⟨r, .inr hload⟩
      · exact ⟨other, .inl hother⟩
    · exact ⟨other, .inr hother⟩

/-- A store that mirrors its sources gives what can be loaded from them. -/
theorem Mirrors.gives_iff {l : Loader} {defaultEncoding : String} (h : s.Mirrors l defaultEncoding) :
    s.Gives t ↔ ∃ r, load l r = .ok (some t) := by
  constructor
  · rintro ⟨r, hr | hr⟩
    · exact ⟨r, h.remembered r t hr⟩
    · exact ⟨r, h.loader ▸ hr⟩
  · rintro ⟨r, hr⟩
    exact ⟨r, .inr (h.loader.symm ▸ hr)⟩

end Store

/-! ## Steps that do the same -/

/-- All templates that the store of the state gives are of a kind. -/
def Within (G : Template → Prop) (s : RenderState) : Prop := ∀ t, s.store.Gives t → G t

/-- The steps do the same while the store gives only templates of a kind: they lead to the same outcome
and the same state, the store still gives no others, and the result is as required. -/
def Run.Same {α : Type} (G : Template → Prop) (Q : α → Prop) (m n : Run α) : Prop :=
  ∀ s, Within G s → m s = n s ∧ Within G (m s).2 ∧ ∀ a, (m s).1 = .ok a → Q a

namespace Run

variable {G : Template → Prop} {α β : Type} {Q : α → Prop} {R : β → Prop}

theorem same_pure {a : α} (h : Q a) : Same G Q (pure a) (pure a) :=
  fun _ hs => ⟨rfl, hs, fun _ ha => Except.ok.inj ha ▸ h⟩

/-- A sequence goes on with the same step from the same state. -/
theorem same_bind {m n : Run α} {f g : α → Run β} (hm : Same G Q m n)
    (hf : ∀ a, Q a → Same G R (f a) (g a)) : Same G R (m >>= f) (n >>= g) := by
  intro s hs
  obtain ⟨hsame, hstate, hresult⟩ := hm s hs
  rw [bind_apply, bind_apply, ← hsame]
  generalize m s = r at hstate hresult
  rcases r with ⟨x | a, t⟩
  · exact ⟨rfl, hstate, nofun⟩
  · exact hf a (hresult a rfl) t hstate

/-- A change of the state that keeps the store. -/
theorem same_change {f : RenderState → RenderState} (h : ∀ s, (f s).store = s.store) :
    Same G (fun _ => True) (change f) (change f) :=
  fun s hs => ⟨rfl, fun t ht => hs t (h s ▸ ht), fun _ _ => trivial⟩

theorem same_lift (r : Except Failure α) : Same G (fun _ => True) (lift r) (lift r) := by
  intro s hs
  rw [lift_apply]
  exact ⟨rfl, hs, fun _ _ => trivial⟩

/-- A step may look at the name of the running template. -/
theorem same_named {f g : String → Run α} (h : ∀ name, Same G Q (f name) (g name)) :
    Same G Q (get >>= fun s => f s.current.name) (get >>= fun s => g s.current.name) := by
  intro s hs
  rw [bind_apply, bind_apply, get_apply]
  exact h s.current.name s hs

theorem same_framed (e : Element) {m n : Run Unit} (h : Same G (fun _ => True) m n) :
    Same G (fun _ => True) (framed e m) (framed e n) := by
  intro s hs
  obtain ⟨hsame, hstate, -⟩ := h { s with frames := ⟨e, s.current⟩ :: s.frames } hs
  unfold framed
  rw [← hsame]
  generalize m _ = r at hstate
  rcases r with ⟨x | a, t⟩ <;> exact ⟨rfl, hstate, fun _ _ => trivial⟩

theorem same_nested (template : Template) {m n : Run Unit} (h : Same G (fun _ => True) m n) :
    Same G (fun _ => True) (nested template m) (nested template n) := by
  intro s hs
  obtain ⟨hsame, hstate, -⟩ := h
    { s with current := template, chain := template.name :: s.chain, locals := [] :: s.locals } hs
  unfold nested
  rw [← hsame]
  exact ⟨rfl, hstate, fun _ _ => trivial⟩

end Run

/-! ## Rendering with other data -/

section

variable {job : Job} {data : List (String × Value)} {G : Template → Prop}

/-- The data of the job and the other data have the same values for these variables, and miss the same
ones. -/
def AgreeOn (job : Job) (data : List (String × Value)) (names : List String) : Prop :=
  ∀ x ∈ names, job.data.lookup x = data.lookup x

theorem AgreeOn.left {xs ys : List String} (h : AgreeOn job data (xs ++ ys)) :
    AgreeOn job data xs :=
  fun x hx => h x (List.mem_append_left ys hx)

theorem AgreeOn.right {xs ys : List String} (h : AgreeOn job data (xs ++ ys)) :
    AgreeOn job data ys :=
  fun x hx => h x (List.mem_append_right xs hx)

theorem value_of_agree {x : String} (h : job.data.lookup x = data.lookup x) (s : RenderState) :
    s.value job x = s.value { job with data } x := by
  simp only [RenderState.value, RenderState.outer, h]

/-- An expression has the same value with both data. -/
theorem eval_of_agree {e : Expr} (h : AgreeOn job data e.names) (s : RenderState) :
    e.eval (some (s.value job)) = e.eval (some (s.value { job with data })) := by
  refine Expr.eval_congr fun x hx => ?_
  simp only [Expr.evalVar, value_of_agree (h x hx) s]

/-- So has what is made of its value. -/
theorem same_evaluate {α : Type} {e : Expr} (h : AgreeOn job data e.names)
    (f : Except EvalError Model → Except EvalError α) :
    Run.Same G (fun _ => True) (Run.evaluate job fun scope => f (e.eval scope))
      (Run.evaluate { job with data } fun scope => f (e.eval scope)) := by
  intro s hs
  rw [Run.evaluate_apply, Run.evaluate_apply, eval_of_agree h s]
  exact ⟨rfl, hs, fun _ _ => trivial⟩

theorem same_encodingOf {a : Attr (Option String)} (h : AgreeOn job data a.names) :
    Run.Same G (fun _ => True) (encodingOf job a) (encodingOf { job with data } a) := by
  cases a with
  | default v => exact Run.same_pure trivial
  | folded v e => exact Run.same_pure trivial
  | deferred e =>
    exact Run.same_bind (same_evaluate h fun r => do e.textOf (← r))
      fun text _ => Run.same_pure trivial

theorem same_parseOf {a : Attr Bool} (h : AgreeOn job data a.names) :
    Run.Same G (fun _ => True) (parseOf job a) (parseOf { job with data } a) := by
  cases a with
  | default v => exact Run.same_pure trivial
  | folded v e => exact Run.same_pure trivial
  | deferred e => exact same_evaluate h fun r => do (parseFlagOf e (← r)).mapError .value

theorem same_ignoreMissingOf {a : Attr Bool} (h : AgreeOn job data a.names) :
    Run.Same G (fun _ => True) (ignoreMissingOf job a) (ignoreMissingOf { job with data } a) := by
  cases a with
  | default v => exact Run.same_pure trivial
  | folded v e => exact Run.same_pure trivial
  | deferred e => exact same_evaluate h fun r => do e.flagOf (← r)

/-- What an inclusion finds is a template that the store gives. -/
def Found (G : Template → Prop) (found : Option Template) : Prop := ∀ t, found = some t → G t

theorem same_request (d : Demand) :
    Run.Same G (Found G) (request job d.name d.full d.encoding d.parse d.ignoreMissing)
      (request { job with data } d.name d.full d.encoding d.parse d.ignoreMissing) := by
  intro s hs
  refine ⟨rfl, ?_⟩
  rw [Demand.request_apply]
  refine ⟨fun t ht => hs t (Store.gives_of_ask ht), fun found hfound t ht => ?_⟩
  apply hs t
  apply Store.gives_of_answer
  -- an answer is found as it is given
  cases hanswer : (s.store.ask (d.query job)).1 with
  | error x => rw [hanswer] at hfound; cases hfound
  | ok a =>
    rw [hanswer] at hfound
    cases hfound
    rw [ht]

theorem same_inclusionTarget {i : Inclusion} (h : AgreeOn job data i.names) :
    Run.Same G (Found G) (inclusionTarget job i) (inclusionTarget { job with data } i) := by
  rw [inclusionTarget_eq, inclusionTarget_eq]
  apply Run.same_bind (same_evaluate h.left fun r => do i.target.textOf (← r))
  intro name _
  apply Run.same_named
  intro base
  apply Run.same_bind (Run.same_lift (resolveName base name))
  intro full _
  apply Run.same_bind (same_encodingOf h.right.left)
  intro encoding _
  apply Run.same_bind (same_parseOf h.right.right.left)
  intro parse _
  apply Run.same_bind (same_ignoreMissingOf h.right.right.right)
  intro ignoreMissing _
  exact same_request ⟨name, full, encoding, parse, ignoreMissing⟩

theorem store_setLocal (name : String) (value : Option Model) (s : RenderState) :
    (s.setLocal name value).store = s.store := by
  unfold RenderState.setLocal
  split <;> rfl

mutual

/-- **An element does the same with both data** if inclusions do so with the templates that the store
gives. -/
theorem same_runElement {onInclude onInclude' : Template → Run Unit}
    (hin : ∀ t, G t → Run.Same G (fun _ => True) (onInclude t) (onInclude' t)) :
    ∀ e : Element, AgreeOn job data e.names →
      Run.Same G (fun _ => True) (runElement job onInclude e)
        (runElement { job with data } onInclude' e)
  | .text _ s, _ => by
    rw [runElement.eq_def, runElement.eq_def]
    exact Run.same_framed _ (Run.same_change fun _ => rfl)
  | .interpolation _ value, h => by
    rw [runElement.eq_def, runElement.eq_def]
    apply Run.same_framed
    exact Run.same_bind (same_evaluate h fun r => do value.textOf (← r))
      fun s _ => Run.same_change fun _ => rfl
  | .conditional _ condition body none, h => by
    rw [runElement.eq_def, runElement.eq_def]
    apply Run.same_framed
    apply Run.same_bind (same_evaluate h.left fun r => do condition.flagOf (← r))
    intro holds _
    cases holds with
    | true => exact same_runAll hin body h.right
    | false => exact Run.same_pure trivial
  | .conditional _ condition body (some otherwise), h => by
    rw [runElement.eq_def, runElement.eq_def]
    apply Run.same_framed
    apply Run.same_bind (same_evaluate h.left fun r => do condition.flagOf (← r))
    intro holds _
    cases holds with
    | true => exact same_runAll hin body h.right.left
    | false => exact same_runAll hin otherwise h.right.right
  | .assign _ scope name value, h => by
    rw [runElement.eq_def, runElement.eq_def]
    apply Run.same_framed
    apply Run.same_bind (same_evaluate h id)
    intro m _
    cases scope with
    | template => exact Run.same_change (store_setLocal name (some m))
    | render => exact Run.same_change fun _ => rfl
  | .inclusion _ i, h => by
    rw [runElement.eq_def, runElement.eq_def]
    apply Run.same_framed
    apply Run.same_bind (same_inclusionTarget h)
    intro found hfound
    cases found with
    | none => exact Run.same_pure trivial
    | some template => exact hin template (hfound template rfl)

theorem same_runAll {onInclude onInclude' : Template → Run Unit}
    (hin : ∀ t, G t → Run.Same G (fun _ => True) (onInclude t) (onInclude' t)) :
    ∀ es : List Element, AgreeOn job data (Element.namesAll es) →
      Run.Same G (fun _ => True) (runAll job onInclude es) (runAll { job with data } onInclude' es)
  | [], _ => by
    rw [runAll, runAll]
    exact Run.same_pure trivial
  | e :: es, h => by
    rw [runAll, runAll]
    exact Run.same_bind (same_runElement hin e h.left) fun _ _ => same_runAll hin es h.right

end

/-- **An included template does the same with both data**, at every depth: the induction is on the
levels of nesting that are left. -/
theorem same_enter (hG : ∀ t, G t → AgreeOn job data t.names) (budget : Nat) (template : Template)
    (h : G template) :
    Run.Same G (fun _ => True) (enter job budget template)
      (enter { job with data } budget template) := by
  induction budget generalizing template with
  | zero => exact fun s hs => ⟨rfl, hs, fun _ _ => trivial⟩
  | succ budget ih =>
    exact Run.same_nested template (same_runAll ih template.root (hG template h))

end

/-- **A render reads of its data the variables that are written in templates.** Take two lists of data
that have the same values for every variable in an expression of the main template, and miss the same
ones, and so for every variable in an expression of a template that the store gives. With both the
render has the same outcome, success or the same failure with its message and trace, and ends in the
same state, with the same output and the same variables of the render.

A store that remembers nothing else than its sources give, such as that of a new engine, gives the
templates that can be loaded from them; so then it is enough that the data agree on these. -/
theorem process_reads_names (job : Job) (main : Template) (store : Store)
    (data : List (String × Value)) (hmain : AgreeOn job data main.names) :
    ((∀ t, store.Gives t → AgreeOn job data t.names) →
      process job main store = process { job with data } main store) ∧
    ∀ l defaultEncoding, store.Mirrors l defaultEncoding →
      (∀ r t, load l r = .ok (some t) → AgreeOn job data t.names) →
      process job main store = process { job with data } main store := by
  have hgives : (∀ t, store.Gives t → AgreeOn job data t.names) →
      process job main store = process { job with data } main store := by
    intro hstore
    exact (same_runAll (same_enter hstore _) main.root hmain (.initial main store) fun _ ht => ht).1
  refine ⟨hgives, fun l defaultEncoding hmirrors hload => hgives fun t ht => ?_⟩
  obtain ⟨r, hr⟩ := hmirrors.gives_iff.mp ht
  exact hload r t hr

/-- The template `b`, which writes the variable `x`. -/
def reader : Template :=
  ⟨"b", [.interpolation ⟨1, 1⟩ (.var "x")], "dict:b", some "utf-8", true⟩

/-- The template `a`, which includes `b` and writes the variable `x` once more. -/
def readerOfReader : Template :=
  ⟨"a", [.inclusion ⟨1, 1⟩ ⟨.str "b", .default none, .default true, .default false⟩,
    .interpolation ⟨1, 20⟩ (.var "x")], "dict:a", some "utf-8", true⟩

/-- Variables other than `x` make no difference to these templates. -/
theorem reader_reads_names :
    let store : Store := ⟨.empty, "utf-8", [(⟨"b", "utf-8", true⟩, reader)]⟩
    let job : Job := ⟨"a", .defaults, [("x", .str "in"), ("y", .str "out")]⟩
    (process job readerOfReader store).2.output = "inin" ∧
      process job readerOfReader store =
        process { job with data := [("z", .null), ("x", .str "in")] } readerOfReader store := by
  intro store job
  have hagree : AgreeOn job [("z", .null), ("x", .str "in")] ["x"] := by
    intro x hx
    rw [List.mem_singleton.mp hx]
    rfl
  have hmain : AgreeOn job [("z", .null), ("x", .str "in")] readerOfReader.names := hagree
  -- the store has no sources, and remembers one template
  have hstore : ∀ t, store.Gives t → AgreeOn job [("z", .null), ("x", .str "in")] t.names := by
    rintro t ⟨r, hr | hr⟩
    · obtain ⟨before, after, hcache, -⟩ := List.lookup_eq_some_iff.mp hr
      have hmem : (r, t) ∈ store.cache := hcache ▸ by simp
      cases List.mem_singleton.mp hmem
      exact hagree
    · cases hr
  exact ⟨by decide +kernel, (process_reads_names job readerOfReader store _ hmain).1 hstore⟩

end Stencil

import Stencil.Proofs.Render.Step

/-!
# What running has from the steps it is put together from

A property of steps that sequences of steps inherit, and that each kind of step has, is a property
of all that runs: of the target of every inclusion, of every element, and of templates that include
each other at every depth.

## Main definitions

* `Run.Sequential` is a property that sequences inherit and that evaluations and requests have.
* `Run.Hereditary` is one that changes of the state have, too, and that running elements and
  included templates inherit.

## Main results

* `Run.Sequential.inclusionTarget`, `Run.Hereditary.runAll` and `Run.Hereditary.visit`.
-/

namespace Stencil

/-- Asks the store for the target of an inclusion; a loading error becomes one of the inclusion. -/
def request (job : Job) (name full : String) (encoding : Option String)
    (parse ignoreMissing : Bool) : Run (Option Template) := fun s =>
  match fetch job full encoding parse ignoreMissing s with
  | (.error e, t) => (.error (includeFailure name e), t)
  | r => r

/-- The target of an inclusion whose expression has the text `name`, in the template `base`. -/
def targetIn (job : Job) (i : Inclusion) (name base : String) : Run (Option Template) := do
  let full ← Run.lift (resolveName base name)
  let encoding ← encodingOf job i.encoding
  let parse ← parseOf job i.parse
  let ignoreMissing ← ignoreMissingOf job i.ignoreMissing
  request job name full encoding parse ignoreMissing

theorem inclusionTarget_eq (job : Job) (i : Inclusion) :
    inclusionTarget job i =
      (do
        let name ← Run.evaluate job fun scope => i.target.evalText scope
        let s ← get
        targetIn job i name s.current.name) := by
  unfold inclusionTarget targetIn
  rfl

namespace Run

variable {job : Job} {P : {α : Type} → Run α → Prop}

/-- A property that sequences of steps inherit, and that looking at the state, evaluations and
requests to the store have. -/
structure Sequential (job : Job) (P : {α : Type} → Run α → Prop) : Prop where
  pure {α : Type} (a : α) : P (Pure.pure a : Run α)
  bind {α β : Type} {m : Run α} {f : α → Run β} : P m → (∀ a, P (f a)) → P (m >>= f)
  evaluate {α : Type} (f : Scope → Except EvalError α) : P (Run.evaluate job f)
  resolve (base name : String) : P (lift (resolveName base name))
  /-- Of the running template a step may look at the name. -/
  named {f : String → Run (Option Template)} : (∀ name, P (f name)) → P (get >>= fun s => f s.current.name)
  request (name full : String) (encoding : Option String) (parse ignoreMissing : Bool) :
    P (request job name full encoding parse ignoreMissing)

namespace Sequential

variable (h : Sequential job P)

include h

theorem encodingOf (a : Attr (Option String)) : P (encodingOf job a) := by
  cases a with
  | default v => exact h.pure v
  | folded v e => exact h.pure v
  | deferred e => exact h.bind (h.evaluate _) fun text => h.pure (some text)

theorem parseOf (a : Attr Bool) : P (parseOf job a) := by
  cases a with
  | default v => exact h.pure v
  | folded v e => exact h.pure v
  | deferred e =>
    rw [Stencil.parseOf]
    exact h.evaluate _

theorem ignoreMissingOf (a : Attr Bool) : P (ignoreMissingOf job a) := by
  cases a with
  | default v => exact h.pure v
  | folded v e => exact h.pure v
  | deferred e =>
    rw [Stencil.ignoreMissingOf]
    exact h.evaluate _

theorem inclusionTarget (i : Inclusion) : P (inclusionTarget job i) := by
  rw [inclusionTarget_eq]
  apply h.bind (h.evaluate _)
  intro name
  apply h.named
  intro base
  apply h.bind (h.resolve base name)
  intro full
  apply h.bind (h.encodingOf i.encoding)
  intro encoding
  apply h.bind (h.parseOf i.parse)
  intro parse
  apply h.bind (h.ignoreMissingOf i.ignoreMissing)
  intro ignoreMissing
  exact h.request name full encoding parse ignoreMissing

end Sequential

/-- A property that running elements and included templates inherit from their bodies, too. -/
structure Hereditary (job : Job) (P : {α : Type} → Run α → Prop) : Prop
    extends Sequential job P where
  write (text : String) : P (change (.write text))
  setLocal (name : String) (value : Option Model) : P (change (.setLocal name value))
  setGlobal (name : String) (value : Option Model) : P (change (.setGlobal name value))
  framed (e : Element) {body : Run Unit} : P body → P (framed e body)
  nested (template : Template) {body : Run Unit} : P body → P (nested template body)
  refuse (template : Template) : P (refuse job template)
  /-- A step may look at the levels of nesting that are left. -/
  budgeted {f : Nat → Run Unit} : (∀ budget, P (f budget)) → P fun s => f (s.budget job) s

namespace Hereditary

variable (h : Hereditary job P)

include h

mutual

/-- An element has the property if what inclusions do with their templates has it. -/
theorem runElement {onInclude : Template → Run Unit} (hin : ∀ template, P (onInclude template)) :
    ∀ e, P (runElement job onInclude e)
  | .text _ s => by
    rw [runElement.eq_def]
    exact h.framed _ (h.write s)
  | .interpolation _ value => by
    rw [runElement.eq_def]
    exact h.framed _ (h.bind (h.evaluate _) fun s => h.write s)
  | .conditional _ condition body otherwise => by
    rw [runElement.eq_def]
    apply h.framed
    apply h.bind (h.evaluate _)
    intro holds
    -- both branches are parts of the element, to which the recursion goes on
    cases holds with
    | true => exact runAll hin body
    | false =>
      cases otherwise with
      | none => exact h.pure ()
      | some branch => exact runAll hin branch
  | .assign _ scope name value => by
    rw [runElement.eq_def]
    apply h.framed
    apply h.bind (h.evaluate _)
    intro m
    cases scope with
    | template => exact h.setLocal name (some m)
    | render => exact h.setGlobal name (some m)
  | .inclusion _ i => by
    rw [runElement.eq_def]
    apply h.framed
    apply h.bind (h.inclusionTarget i)
    intro found
    cases found with
    | none => exact h.pure ()
    | some template => exact hin template

theorem runAll {onInclude : Template → Run Unit} (hin : ∀ template, P (onInclude template)) :
    ∀ es, P (runAll job onInclude es)
  | [] => by
    rw [Stencil.runAll]
    exact h.pure ()
  | e :: es => by
    rw [Stencil.runAll]
    exact h.bind (runElement hin e) fun _ => runAll hin es

end

/-- So does an included template at every depth: the induction is on the levels that are left. -/
theorem enter (budget : Nat) (template : Template) : P (enter job budget template) := by
  induction budget generalizing template with
  | zero => exact h.refuse template
  | succ budget ih => exact h.nested template (h.runAll ih template.root)

theorem visit (elements : List Element) : P (visit job elements) :=
  h.budgeted fun budget => h.runAll (h.enter budget) elements

end Hereditary

end Run

end Stencil

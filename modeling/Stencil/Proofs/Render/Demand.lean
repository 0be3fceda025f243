import Stencil.Proofs.Render.Composition
import Stencil.Proofs.Store.Memory

/-!
# What an inclusion asks for

An inclusion computes the text of its target, the name that the text stands for in the running
template, and the values of its attributes, in this order and without changing the state. Only then
does it ask the store.

## Main definitions

* `Inclusion.attributes` is what the attributes of an inclusion have as values.
* `Demand` is what an inclusion asks for, `Inclusion.Asks` says that it asks for it in a state.
* `Inclusion.Unasked` says that it fails before it asks.

## Main results

* `Inclusion.asks_or_unasked`: an inclusion asks for something, or fails before it asks.
* `Inclusion.Asks.inclusionTarget_eq`: what it asks for it asks the store for.
-/

namespace Stencil

/-- The value of an attribute, where `eval` gives that of a deferred one. -/
def Attr.value {α : Type} (eval : Expr → Except EvalError α) : Attr α → Except EvalError α
  | .default v => .ok v
  | .folded v _ => .ok v
  | .deferred e => eval e

/-- The values of the attributes: the encoding, whether the target is parsed, and whether it may be
missing. -/
def Inclusion.attributes (i : Inclusion) (scope : Scope) :
    Except EvalError (Option String × Bool × Bool) := do
  let encoding ← i.encoding.value fun e => (e.evalText scope).map some
  let parse ← i.parse.value fun e => do (parseFlagOf e (← e.eval scope)).mapError .value
  let ignoreMissing ← i.ignoreMissing.value fun e => e.evalFlag scope
  return (encoding, parse, ignoreMissing)

/-- What an inclusion asks for: the text of its target, the full name that this text stands for, and
the values of its attributes. -/
structure Demand where
  name : String
  full : String
  encoding : Option String
  parse : Bool
  ignoreMissing : Bool

/-- The question to the store that a demand is. -/
def Demand.query (job : Job) (d : Demand) : Query :=
  ⟨d.full, some (d.encoding.getD job.settings.defaultEncoding), d.parse, d.ignoreMissing⟩

/-- A demand is a question to the store, in which a loading error becomes one of the inclusion. -/
theorem Demand.request_apply (job : Job) (d : Demand) (s : RenderState) :
    request job d.name d.full d.encoding d.parse d.ignoreMissing s =
      ((s.store.ask (d.query job)).1.mapError (includeFailure d.name),
        { s with store := (s.store.ask (d.query job)).2 }) := by
  unfold request fetch Store.ask Demand.query
  dsimp only
  generalize s.store.get _ _ _ _ = r
  rcases r with ⟨_ | _, store⟩ <;> rfl

/-- In the state the inclusion asks for this. -/
structure Inclusion.Asks (job : Job) (i : Inclusion) (s : RenderState) (d : Demand) : Prop where
  target : i.target.evalText (some (s.value job)) = .ok d.name
  resolved : Name.resolve s.current.name d.name = .ok d.full
  attributes : i.attributes (some (s.value job)) = .ok (d.encoding, d.parse, d.ignoreMissing)

/-- In the state the inclusion fails before it asks for anything. -/
inductive Inclusion.Unasked (job : Job) (i : Inclusion) (s : RenderState) : Failure → Prop
  | target {e : EvalError} (htarget : i.target.evalText (some (s.value job)) = .error e) :
      Unasked job i s (.ofEval e)
  | name {name written : String} {defect : Name.Defect}
      (htarget : i.target.evalText (some (s.value job)) = .ok name)
      (hname : Name.resolve s.current.name name = .error (written, defect)) :
      Unasked job i s (.run (.malformedName written defect.describe) none)
  | attributes {name full : String} {e : EvalError}
      (htarget : i.target.evalText (some (s.value job)) = .ok name)
      (hname : Name.resolve s.current.name name = .ok full)
      (hattributes : i.attributes (some (s.value job)) = .error e) : Unasked job i s (.ofEval e)

section

variable {job : Job} {s : RenderState}

/-- What follows an evaluation begins in the state in which the evaluation did. -/
theorem Run.bind_of_evaluated {α β : Type} {m : Run α} {r : Except EvalError α} {f : α → Run β} :
    m s = (r.mapError .ofEval, s) →
      (m >>= f) s = match r with
        | .ok a => f a s
        | .error e => (.error (.ofEval e), s) := by
  intro h
  rw [Run.bind_apply, h]
  cases r <;> rfl

theorem encodingOf_apply (a : Attr (Option String)) (s : RenderState) :
    encodingOf job a s =
      ((a.value fun e => (e.evalText (some (s.value job))).map some).mapError .ofEval, s) := by
  cases a with
  | default | folded => rfl
  | deferred e =>
    simp only [encodingOf, Run.bind_apply, Run.evaluate_apply, Attr.value]
    cases e.evalText (some (s.value job)) <;> rfl

theorem parseOf_apply (a : Attr Bool) (s : RenderState) :
    parseOf job a s =
      ((a.value fun e => do
        (parseFlagOf e (← e.eval (some (s.value job)))).mapError .value).mapError .ofEval, s) := by
  cases a with
  | default | folded => rfl
  | deferred e => rw [parseOf, Run.evaluate_apply, Attr.value]

theorem ignoreMissingOf_apply (a : Attr Bool) (s : RenderState) :
    ignoreMissingOf job a s =
      ((a.value fun e => e.evalFlag (some (s.value job))).mapError .ofEval, s) := by
  cases a with
  | default | folded => rfl
  | deferred e => rw [ignoreMissingOf, Run.evaluate_apply, Attr.value]

/-- Under a full name, an inclusion computes its attributes and asks the store. -/
theorem attributes_apply (job : Job) (i : Inclusion) (name full : String) (s : RenderState) :
    (do
      let encoding ← encodingOf job i.encoding
      let parse ← parseOf job i.parse
      let ignoreMissing ← ignoreMissingOf job i.ignoreMissing
      request job name full encoding parse ignoreMissing : Run (Option Template)) s =
      match i.attributes (some (s.value job)) with
      | .ok a => request job name full a.1 a.2.1 a.2.2 s
      | .error e => (.error (.ofEval e), s) := by
  rw [Run.bind_of_evaluated (encodingOf_apply i.encoding s), Inclusion.attributes]
  -- the first attribute without a value ends both sides
  cases i.encoding.value _ with
  | error e => rfl
  | ok encoding =>
    dsimp only
    rw [Run.bind_of_evaluated (parseOf_apply i.parse s)]
    cases i.parse.value _ with
    | error e => rfl
    | ok parse =>
      dsimp only
      rw [Run.bind_of_evaluated (ignoreMissingOf_apply i.ignoreMissing s)]
      cases i.ignoreMissing.value _ <;> rfl

/-- Behind the text of its target, an inclusion finds its full name in the running template. -/
theorem inclusionTarget_of_target {i : Inclusion} {name : String}
    (h : i.target.evalText (some (s.value job)) = .ok name) :
    inclusionTarget job i s = targetIn job i name s.current.name s := by
  rw [inclusionTarget_eq, Run.bind_of_evaluated (Run.evaluate_apply s job _), h]
  dsimp only
  rw [Run.bind_apply, Run.get_apply]

theorem targetIn_of_resolved {i : Inclusion} {base name full : String}
    (h : Name.resolve base name = .ok full) :
    targetIn job i name base s =
      match i.attributes (some (s.value job)) with
      | .ok a => request job name full a.1 a.2.1 a.2.2 s
      | .error e => (.error (.ofEval e), s) := by
  rw [targetIn, Run.bind_apply, Run.lift_apply, resolveName, h]
  exact attributes_apply job i name full s

namespace Inclusion

variable {i : Inclusion}

/-- An inclusion that asks for something asks the store, in the state in which it began. -/
theorem Asks.inclusionTarget_eq {d : Demand} (h : i.Asks job s d) :
    inclusionTarget job i s = request job d.name d.full d.encoding d.parse d.ignoreMissing s := by
  rw [inclusionTarget_of_target h.target, targetIn_of_resolved h.resolved, h.attributes]

theorem Asks.inclusionTarget_ask {d : Demand} (h : i.Asks job s d) :
    inclusionTarget job i s =
      ((s.store.ask (d.query job)).1.mapError (includeFailure d.name),
        { s with store := (s.store.ask (d.query job)).2 }) := by
  rw [h.inclusionTarget_eq, Demand.request_apply]

/-- What an inclusion asks for is a request for the name that it has resolved, read as the inclusion
says. -/
theorem Asks.request {d : Demand} (h : i.Asks job s d) (defaultEncoding : String) :
    ∃ r, (d.query job).request defaultEncoding = .ok r ∧ r.name = d.full ∧ r.parse = d.parse :=
  Request.ofName_of_normal (Name.normalize_normal h.resolved) defaultEncoding
    (some (d.encoding.getD job.settings.defaultEncoding)) d.parse

/-- An inclusion that fails before it asks leaves the state alone. -/
theorem Unasked.inclusionTarget_eq {x : Failure} (h : i.Unasked job s x) :
    inclusionTarget job i s = (.error x, s) := by
  cases h with
  | target htarget =>
    rw [Stencil.inclusionTarget_eq, Run.bind_of_evaluated (Run.evaluate_apply s job _), htarget]
  | name htarget hname =>
    rw [inclusionTarget_of_target htarget, targetIn, Run.bind_apply, Run.lift_apply, resolveName,
      hname]
    rfl
  | attributes htarget hname hattributes =>
    rw [inclusionTarget_of_target htarget, targetIn_of_resolved hname, hattributes]

/-- **An inclusion asks for something, or fails before it asks.** -/
theorem asks_or_unasked (job : Job) (i : Inclusion) (s : RenderState) :
    (∃ d, i.Asks job s d) ∨ ∃ x, i.Unasked job s x := by
  cases htarget : i.target.evalText (some (s.value job)) with
  | error e => exact .inr ⟨_, .target htarget⟩
  | ok name =>
    cases hname : Name.resolve s.current.name name with
    | error d => exact .inr ⟨_, .name htarget hname⟩
    | ok full =>
      cases hattributes : i.attributes (some (s.value job)) with
      | error e => exact .inr ⟨_, .attributes htarget hname hattributes⟩
      | ok a => exact .inl ⟨⟨name, full, a.1, a.2.1, a.2.2⟩, htarget, hname, hattributes⟩

end Inclusion

end

end Stencil

import Stencil.Render.State

/-!
# Running templates

Elements run one after the other and change the state of the render. An error leaves the state as
far as it had come, but for what is taken back on the way out: the stack of running elements, and
on leaving an included template its local scope, its entry in the chain of inclusions and the
template that is running. An error of a running template takes its trace from the stack at the
innermost element.

An included template runs with one level of nesting less to spend, so that running ends however
the templates include each other.

## Main definitions

* `Run` is a step that changes the state and may fail.
* `runElement` and `runAll` run elements, given what an inclusion does with its template.
* `enter` runs an included template, within a budget of nesting.
* `includeTemplate`, `visit` and `process` run a template, elements and a whole render.
-/

namespace Stencil

/-- A step of a render: it changes the state, and may fail. -/
abbrev Run (α : Type) := ExceptT Failure (StateM RenderState) α

namespace Run

/-- Changes the state. -/
def change (f : RenderState → RenderState) : Run Unit := fun s => (.ok (), f s)

/-- Fails. -/
def fail {α : Type} (e : Failure) : Run α := fun s => (.error e, s)

/-- A result that does not depend on the state. -/
def lift {α : Type} : Except Failure α → Run α
  | .ok a => fun s => (.ok a, s)
  | .error e => fail e

/-- The outcome of an evaluation in the scope of the state. -/
def evaluate {α : Type} (job : Job) (f : Scope → Except EvalError α) : Run α := fun s =>
  match f (some (s.value job)) with
  | .ok a => (.ok a, s)
  | .error e => (.error (.ofEval e), s)

/-- Attaches the trace of the running elements to an error of a running template that has none. -/
def annotate (frames : List Frame) : Failure → Failure
  | .run e none => .run e (some (traceLines frames))
  | e => e

/-- Runs the body of an element: the element is on the stack meanwhile, and an error gets its
trace. -/
def framed (element : Element) (body : Run Unit) : Run Unit := fun s =>
  match body { s with frames := ⟨element, s.current⟩ :: s.frames } with
  | (.ok (), t) => (.ok (), { t with frames := t.frames.tail })
  | (.error e, t) => (.error (annotate t.frames e), { t with frames := t.frames.tail })

/-- Runs the body of an included template in a local scope of its own. -/
def nested (template : Template) (body : Run Unit) : Run Unit := fun s =>
  match body
    { s with
      current := template
      chain := template.name :: s.chain
      locals := [] :: s.locals } with
  | (r, t) =>
    (r, { t with current := s.current, chain := t.chain.tail, locals := t.locals.tail })

end Run

/-! ## Inclusions -/

/-- The encoding that an inclusion asks for. -/
def encodingOf (job : Job) : Attr (Option String) → Run (Option String)
  | .default v => pure v
  | .folded v _ => pure v
  | .deferred e => (do return some (← Run.evaluate job fun scope => e.evalText scope))

/-- Whether the target of an inclusion is parsed. -/
def parseOf (job : Job) : Attr Bool → Run Bool
  | .default v => pure v
  | .folded v _ => pure v
  | .deferred e => Run.evaluate job fun scope => do
    (parseFlagOf e (← e.eval scope)).mapError .value

/-- Whether the target of an inclusion may be missing. -/
def ignoreMissingOf (job : Job) : Attr Bool → Run Bool
  | .default v => pure v
  | .folded v _ => pure v
  | .deferred e => Run.evaluate job fun scope => e.evalFlag scope

/-- Resolves a name as written in a template. -/
def resolveName (base name : String) : Except Failure String :=
  (Name.resolve base name).mapError fun d => .run (.malformedName d.1 d.2.describe) none

/-- Asks the store for a template to include. -/
def fetch (job : Job) (name : String) (encoding : Option String) (parse ignoreMissing : Bool) :
    Run (Option Template) := fun s =>
  let (r, store) :=
    s.store.get name (some (encoding.getD job.settings.defaultEncoding)) parse ignoreMissing
  (r, { s with store })

/-- A loading error as the failure of the inclusion that names its target so. -/
def includeFailure (name : String) : Failure → Failure
  | .load e => .run (.inclusion name (some e)) none
  | e => e

/-- Finds the template that an inclusion includes: nothing if it is missing and may be. -/
def inclusionTarget (job : Job) (i : Inclusion) : Run (Option Template) := do
  let name ← Run.evaluate job fun scope => i.target.evalText scope
  let base := (← get).current.name
  let full ← Run.lift (resolveName base name)
  let encoding ← encodingOf job i.encoding
  let parse ← parseOf job i.parse
  let ignoreMissing ← ignoreMissingOf job i.ignoreMissing
  fun s =>
    match fetch job full encoding parse ignoreMissing s with
    | (.error e, t) => (.error (includeFailure name e), t)
    | r => r

/-! ## Elements -/

mutual

/-- Runs an element; `onInclude` is what an inclusion does with its template. -/
def runElement (job : Job) (onInclude : Template → Run Unit) (e : Element) : Run Unit :=
  Run.framed e <|
    match e with
    | .text _ s => Run.change (.write s)
    | .interpolation _ value => do
      let s ← Run.evaluate job fun scope => value.evalText scope
      Run.change (.write s)
    | .conditional _ condition body otherwise => do
      if ← Run.evaluate job fun scope => condition.evalFlag scope then
        runAll job onInclude body
      else
        match otherwise with
        | some branch => runAll job onInclude branch
        | none => pure ()
    | .assign _ scope name value => do
      let m ← Run.evaluate job fun s => value.eval s
      match scope with
      | .template => Run.change (.setLocal name (some m))
      | .render => Run.change (.setGlobal name (some m))
    | .inclusion _ i => do
      match ← inclusionTarget job i with
      | some template => onInclude template
      | none => pure ()

/-- Runs elements in order, up to the first failure. -/
def runAll (job : Job) (onInclude : Template → Run Unit) : List Element → Run Unit
  | [] => pure ()
  | e :: es => do
    runElement job onInclude e
    runAll job onInclude es

end

/-! ## Nesting -/

/-- The refusal of a template whose inclusion would be nested too deeply. -/
def refuse (job : Job) (template : Template) : Run Unit := fun s =>
  (.error (.run (.tooDeep job.settings.recursionLimit
    (job.main :: s.chain.reverse ++ [template.name])) none), s)

/-- Runs an included template, when that many levels of nesting are left. -/
def enter (job : Job) : Nat → Template → Run Unit
  | 0, template => refuse job template
  | budget + 1, template => Run.nested template (runAll job (enter job budget) template.root)

/-- The levels of nesting that are left in a state. -/
def RenderState.budget (job : Job) (s : RenderState) : Nat :=
  job.settings.recursionLimit - s.chain.length

/-- Includes a template. -/
def includeTemplate (job : Job) (template : Template) : Run Unit := fun s =>
  enter job (s.budget job) template s

/-- Runs elements. -/
def visit (job : Job) (elements : List Element) : Run Unit := fun s =>
  runAll job (enter job (s.budget job)) elements s

/-- The outcome of a whole render, and the state at its end. -/
def process (job : Job) (main : Template) (store : Store) :
    Except Failure Unit × RenderState :=
  visit job main.root (.initial main store)

end Stencil

import Stencil.Config.Settings
import Stencil.Store

/-!
# The state of a render

While a template runs, the engine keeps the output so far, the variables, the template that is
running, the chain of inclusions that led to it and the stack of elements that are running. What
never changes during a render is kept apart.

## Main definitions

* `Job` is what stays fixed during a render, `RenderState` what changes.
* `Bindings` binds names to values, in the order of their first binding.
* `RenderState.value` looks a variable up: in the local scopes from the innermost outwards, then
  among the variables of the render, in the data, and among the shared variables.
* `traceLines` is the trace of a stack of running elements.
-/

namespace Stencil

/-- Names bound to values, in the order of their first binding; a bound name may be missing a
value. -/
abbrev Bindings := List (String × Option Model)

namespace Bindings

/-- Binds a name: a bound one keeps its place. -/
def set (name : String) (value : Option Model) : Bindings → Bindings
  | [] => [(name, value)]
  | b :: bs => if b.1 = name then (name, value) :: bs else b :: set name value bs

/-- What a name is bound to. -/
def find (name : String) (bs : Bindings) : Option (Option Model) :=
  bs.lookup name

end Bindings

/-- What stays fixed during a render. -/
structure Job where
  /-- The name of the main template. -/
  main : String
  settings : Settings
  /-- The variables that the caller supplies. -/
  data : List (String × Value)

/-- An element that is running, with the template it belongs to. -/
structure Frame where
  element : Element
  template : Template

/-- What changes during a render. -/
structure RenderState where
  /-- The template that is running. -/
  current : Template
  /-- What has been written. -/
  output : String
  /-- The variables of the whole render. -/
  globals : Bindings
  /-- The local scopes, the innermost one first. -/
  locals : List Bindings
  /-- The elements that are running, the innermost one first. -/
  frames : List Frame
  /-- The names of the templates being included, the innermost one first. -/
  chain : List String
  store : Store

namespace RenderState

/-- The state before the main template runs. -/
def initial (main : Template) (store : Store) : RenderState :=
  ⟨main, "", [], [[]], [], [], store⟩

/-- The value of a variable that the data or the shared variables bind. -/
def outer (job : Job) (name : String) : Option Model :=
  match job.data.lookup name with
  | some v => Model.ofValue? v
  | none => (job.settings.sharedVariables.lookup name).bind Model.ofValue?

/-- The value of a variable. -/
def value (job : Job) (s : RenderState) (name : String) : Option Model :=
  match (s.locals.findSome? (Bindings.find name)).or (s.globals.find name) with
  | some value => value
  | none => outer job name

/-- Binds a variable in the innermost local scope. -/
def setLocal (name : String) (value : Option Model) (s : RenderState) : RenderState :=
  match s.locals with
  | [] => { s with locals := [Bindings.set name value []] }
  | scope :: rest => { s with locals := scope.set name value :: rest }

/-- Binds a variable of the whole render. -/
def setGlobal (name : String) (value : Option Model) (s : RenderState) : RenderState :=
  { s with globals := s.globals.set name value }

/-- Appends to the output. -/
def write (text : String) (s : RenderState) : RenderState :=
  { s with output := s.output ++ text }

end RenderState

/-! ## Traces -/

/-- Where an element stands. -/
def Frame.location (f : Frame) : String :=
  (if f.template.name = "" then "in nameless template"
    else "in template " ++ quote f.template.name) ++
    let p := f.element.place
    if p.line = 0 then ""
    else " at line " ++ toString p.line ++ ", column " ++ toString p.column

/-- The line of a trace for an element. -/
def Frame.traceLine (label : String) (f : Frame) : String :=
  "- " ++ label ++ ": " ++ f.element.trace ++ " [" ++ f.location ++ "]"

/-- The trace of a stack of running elements, the innermost one first: that one is always shown,
the others unless they are text. -/
def traceLines : List Frame → List String
  | [] => []
  | f :: outer =>
    f.traceLine "Failed at" ::
      (outer.filter (·.element.isShown)).map (·.traceLine "Reached through")

end Stencil

import Stencil.Render.Run

/-!
# The engine

An engine renders templates by name or from text. It keeps what it has loaded, and nothing else,
from one call to the next.

## Main definitions

* `Engine` holds settings and a store.
* `Engine.template` loads a template, `Engine.render` and `Engine.renderText` render one.
-/

namespace Stencil

/-- Settings and a store of templates. -/
structure Engine where
  settings : Settings
  store : Store

namespace Engine

/-- An engine that has loaded nothing yet. -/
def new (settings : Settings) (loader : Loader) : Engine :=
  ⟨settings, .new loader settings.defaultEncoding⟩

/-- Loads a template by name; it must exist. -/
def template (e : Engine) (name : String) (encoding : Option String) (parse : Bool) :
    Except Failure Template × Engine :=
  match e.store.get name encoding parse false with
  | (.error failure, store) => (.error failure, { e with store })
  | (.ok (some t), store) => (.ok t, { e with store })
  | (.ok none, store) => (.error (.load ⟨name, .notFound ""⟩), { e with store })

/-- Renders a template with the given data. -/
def run (e : Engine) (t : Template) (data : List (String × Value)) :
    Except Failure String × Engine :=
  match process ⟨t.name, e.settings, data⟩ t e.store with
  | (.ok (), s) => (.ok s.output, { e with store := s.store })
  | (.error failure, s) => (.error failure, { e with store := s.store })

/-- Loads a template by name and renders it. -/
def render (e : Engine) (name : String) (data : List (String × Value)) :
    Except Failure String × Engine :=
  match e.template name none true with
  | (.error failure, e) => (.error failure, e)
  | (.ok t, e) => e.run t data

/-- Parses a text and renders it; inclusions in it are resolved against `name`. -/
def renderText (e : Engine) (source name : String) (data : List (String × Value)) :
    Except Failure String × Engine :=
  match Template.ofText source name "" none with
  | .error failure => (.error failure, e)
  | .ok t => e.run t data

end Engine

end Stencil

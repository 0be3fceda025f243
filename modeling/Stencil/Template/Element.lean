import Stencil.Template.Inclusion

/-!
# Elements of templates

A template is a list of elements: text, interpolations, conditionals with one or two branches,
assignments and inclusions. Every element knows the place where it begins. It has two written
forms: the *canonical form*, source text that denotes it, and the *trace form*, one line for
reports.

## Main definitions

* `Element` is the type of elements.
* `Element.canonical` and `Element.trace` are the two written forms.
* `Element.agrees` is equality that does not look at places.

## Main results

* `Element.canonicalAll_append`: the canonical form of a list of elements is put together from
  those of its parts.
-/

namespace Stencil

/-- Where an assignment binds its variable. -/
inductive AssignScope
  /-- In the scope of the running template. -/
  | template
  /-- In the scope of the whole render. -/
  | render
  deriving Repr, DecidableEq

/-- The name of the directive that assigns in a scope. -/
def AssignScope.directive : AssignScope → String
  | template => "assign"
  | render => "global"

/-- An element of a template. -/
inductive Element
  /-- Text that is written as it stands. -/
  | text (place : Place) (content : String)
  /-- An expression whose value is written as text. -/
  | interpolation (place : Place) (value : Expr)
  /-- A branch that runs if the condition holds, and perhaps one that runs if not. -/
  | conditional (place : Place) (condition : Expr) (body : List Element)
      (otherwise : Option (List Element))
  /-- A variable that gets a value. -/
  | assign (place : Place) (scope : AssignScope) (name : String) (value : Expr)
  /-- Another template that runs here. -/
  | inclusion (place : Place) (inclusion : Inclusion)
  deriving Repr, Inhabited

namespace Element

/-- The place where an element begins. -/
def place : Element → Place
  | text p _ => p
  | interpolation p _ => p
  | conditional p _ _ _ => p
  | assign p _ _ _ => p
  | inclusion p _ => p

/-- The element at another place. -/
def setPlace (p : Place) : Element → Element
  | text _ s => text p s
  | interpolation _ e => interpolation p e
  | conditional _ c body otherwise => conditional p c body otherwise
  | assign _ scope name e => assign p scope name e
  | inclusion _ i => inclusion p i

/-! ## Written forms -/

/-- The inside of the tag of an inclusion. -/
def inclusionText (i : Inclusion) : String :=
  "#include " ++ i.target.canonical ++
    String.join (i.written.map fun a => " " ++ a.1.name ++ "=" ++ a.2.canonical)

/-- The inside of the tag of an assignment. -/
def assignText (scope : AssignScope) (name : String) (value : Expr) : String :=
  "#" ++ scope.directive ++ " " ++ name ++ " = " ++ value.canonical

mutual

/-- The source text that denotes an element. -/
def canonical : Element → String
  | text _ s => s
  | interpolation _ e => "$\x7b" ++ e.canonical ++ "\x7d"
  | conditional _ c body none => "<#if " ++ c.canonical ++ ">" ++ canonicalAll body ++ "</#if>"
  | conditional _ c body (some otherwise) =>
    "<#if " ++ c.canonical ++ ">" ++ canonicalAll body ++ "<#else>" ++ canonicalAll otherwise ++
      "</#if>"
  | assign _ scope name e => "<" ++ assignText scope name e ++ "/>"
  | inclusion _ i => "<" ++ inclusionText i ++ "/>"

/-- The source text that denotes a list of elements. -/
def canonicalAll : List Element → String
  | [] => ""
  | e :: es => canonical e ++ canonicalAll es

end

theorem canonicalAll_append (es fs : List Element) :
    canonicalAll (es ++ fs) = canonicalAll es ++ canonicalAll fs := by
  induction es with
  | nil => simp [canonicalAll]
  | cons e es ih => simp [canonicalAll, ih, String.append_assoc]

/-- The largest number of characters of a text that a trace shows. -/
def traceLimit : Nat := 40

/-- A text as a trace shows it: a long one is cut and ends in three points. -/
def abbreviate (s : String) : String :=
  let cs := s.toList
  if cs.length ≤ traceLimit then s else String.ofList (cs.take (traceLimit - 3)) ++ "..."

/-- The line that shows an element in a trace. -/
def trace : Element → String
  | text _ s => "text " ++ quote (abbreviate s)
  | interpolation _ e => "$\x7b" ++ e.canonical ++ "\x7d"
  | conditional _ c _ _ => "#if " ++ c.canonical
  | assign _ scope name e => assignText scope name e
  | inclusion _ i => inclusionText i

/-- Text is shown in a trace only where it is the innermost element. -/
def isShown : Element → Bool
  | text _ _ => false
  | _ => true

/-- The sign of an element's kind. -/
def symbol : Element → String
  | text _ _ => "#text"
  | interpolation _ _ => "$\x7b...\x7d"
  | conditional _ _ _ _ => "#if"
  | assign _ scope _ _ => "#" ++ scope.directive
  | inclusion _ _ => "#include"

/-! ## Equality up to places -/

mutual

/-- Two elements are the same but for the places in them. -/
def agrees : Element → Element → Bool
  | text _ s, text _ t => s == t
  | interpolation _ e, interpolation _ f => e = f
  | conditional _ c body none, conditional _ d body' none => c = d && agreesAll body body'
  | conditional _ c body (some otherwise), conditional _ d body' (some otherwise') =>
    c = d && agreesAll body body' && agreesAll otherwise otherwise'
  | assign _ s n e, assign _ t m f => s = t && n == m && e = f
  | inclusion _ i, inclusion _ j => i = j
  | _, _ => false

/-- Two lists of elements are the same but for the places in them. -/
def agreesAll : List Element → List Element → Bool
  | [], [] => true
  | e :: es, f :: fs => agrees e f && agreesAll es fs
  | _, _ => false

end

end Element

end Stencil

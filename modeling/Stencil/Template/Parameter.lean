import Stencil.Template.Element

/-!
# Parameters of elements

Tools inspect an element through its *parameters*: what it consists of, each part in a role. The
attribute `ignore_missing` of an inclusion is no parameter.

## Main definitions

* `ParameterRole` is the role of a parameter, with its label.
* `Element.parameters` lists the parameters of an element.
* `Element.parameter` finds one by its index.

## Main results

* `Element.parameter_eq_ok_iff`: exactly the indices from zero to the number of parameters have a
  parameter.
-/

namespace Stencil

/-- The role of a parameter. -/
inductive ParameterRole
  | templateName
  | parseParameter
  | encodingParameter
  | content
  | condition
  | assignmentTarget
  | assignmentSource
  | variableScope
  deriving Repr, DecidableEq

/-- The label of a role. -/
def ParameterRole.label : ParameterRole → String
  | templateName => "template name"
  | parseParameter => "\"parse\" parameter"
  | encodingParameter => "\"encoding\" parameter"
  | content => "content"
  | condition => "condition"
  | assignmentTarget => "assignment target"
  | assignmentSource => "assignment source"
  | variableScope => "variable scope"

/-- A parameter. -/
inductive Parameter
  | text (value : String)
  | expression (value : Expr)
  /-- An attribute that is not written. -/
  | absent
  deriving Repr, DecidableEq

/-- The parameter for an attribute. -/
def Parameter.ofExpression? : Option Expr → Parameter
  | some e => expression e
  | none => absent

/-- An index at which an element has no parameter. -/
structure ParameterError where
  index : Int
  symbol : String
  count : Nat
  deriving Repr, DecidableEq

/-- The wording of the error. -/
def ParameterError.message (e : ParameterError) : String :=
  "Parameter index " ++ toString e.index ++ " out of range for " ++ e.symbol ++
    " (parameter count: " ++ toString e.count ++ ")"

namespace Element

/-- The parameters of an element in order. -/
def parameters : Element → List (ParameterRole × Parameter)
  | text _ s => [(.content, .text s)]
  | interpolation _ e => [(.content, .expression e)]
  | conditional _ c _ _ => [(.condition, .expression c)]
  | assign _ scope name e =>
    [(.assignmentTarget, .text name), (.assignmentSource, .expression e),
      (.variableScope, .text scope.directive)]
  | inclusion _ i =>
    [(.templateName, .expression i.target),
      (.parseParameter, .ofExpression? i.parse.expression),
      (.encodingParameter, .ofExpression? i.encoding.expression)]

/-- The parameter at an index. -/
def parameter (e : Element) (index : Int) : Except ParameterError (ParameterRole × Parameter) :=
  match if index < 0 then none else e.parameters[index.toNat]? with
  | some p => .ok p
  | none => .error ⟨index, e.symbol, e.parameters.length⟩

/-- Exactly the indices from zero to the number of parameters have a parameter. -/
theorem parameter_eq_ok_iff {e : Element} {index : Int} :
    (∃ p, e.parameter index = .ok p) ↔ 0 ≤ index ∧ index < e.parameters.length := by
  unfold parameter
  split
  · next p h =>
    split at h
    · cases h
    · have := (List.getElem?_eq_some_iff.mp h).1
      exact ⟨fun _ => by omega, fun _ => ⟨p, rfl⟩⟩
  · next h =>
    split at h
    · exact ⟨nofun, fun h => by omega⟩
    · have := List.getElem?_eq_none_iff.mp h
      exact ⟨nofun, fun h => by omega⟩

end Element

end Stencil

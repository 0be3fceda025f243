import Stencil.Value

/-!
# Models: host values as templates see them

A template never looks at a host value itself. It sees a *model*: a description of the value's
type, and what the value can be used as, which is any of a string, a boolean and a number. A
missing value has no model.

## Main definitions

* `Model` is the type of models.
* `Model.ofValue?` is the model of a host value; null has none.
* `Model.ofText`, `Model.ofBool` and `Model.ofNumber` are the models of template values.
* `Model.describe` describes the type of a model that may be missing.

## Main results

* `Model.ofValue?_eq_none_iff`: only null is missing.
-/

namespace Stencil

/-- A value as a template sees it. -/
structure Model where
  /-- The description of the value's type in messages. -/
  typeName : String
  /-- The string the value can be used as. -/
  text : Option String
  /-- The boolean the value can be used as. -/
  flag : Option Bool
  /-- The number the value can be used as. -/
  number : Option Number
  deriving Repr, DecidableEq

namespace Model

/-- The model of a string. -/
def ofText (s : String) : Model := ⟨"a string", some s, none, none⟩

/-- The model of a boolean. -/
def ofBool (b : Bool) : Model := ⟨"a boolean", none, some b, none⟩

/-- The model of a number. -/
def ofNumber (n : Number) : Model := ⟨"a number", none, none, some n⟩

/-- The model of a value without any capability. -/
def plain (className : String) : Model :=
  ⟨"an object of type " ++ className, none, none, none⟩

/-- The model of a host object: what it can be used as, under the description it gives of itself
or else the name of its class. -/
def ofHost (h : HostObject) : Model :=
  ⟨h.typeName.getD ("an object of type " ++ h.className), h.text, h.flag, h.number⟩

/-- The model of a host value; null is a missing value. -/
def ofValue? : Value → Option Model
  | .null => none
  | .bool b => some (ofBool b)
  | .str s => some (ofText s)
  | .number n => some (ofNumber n)
  | .host h => some (ofHost h)
  | v => some (plain v.typeName)

/-- Only null is a missing value. -/
theorem ofValue?_eq_none_iff {v : Value} : ofValue? v = none ↔ v = .null := by
  cases v <;> simp [ofValue?]

/-- The description of a type, for messages. -/
def describe : Option Model → String
  | some m => m.typeName
  | none => "null"

end Model

end Stencil

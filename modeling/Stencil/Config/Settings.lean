import Stencil.Config.Loading

/-!
# Settings of an engine

## Main definitions

* `Settings` holds the settings, with their defaults.
* `Settings.ofParts` builds settings from parts that come from outside, refusing a recursion limit
  out of range.
* `Settings.schema` is the schema of settings in a configuration, `Settings.ofValue` loads them
  from a raw value.

## Main results

* `Settings.ofValue_null`: a configuration that says nothing gives the defaults.
-/

namespace Stencil

/-- The largest recursion limit. -/
def maxRecursionLimit : Nat := 128

/-- The settings of an engine. -/
structure Settings where
  /-- The directory of the template files. -/
  templateRoot : String := "templates"
  /-- The charset of sources whose inclusion names none. -/
  defaultEncoding : String := "utf-8"
  /-- How deeply inclusions may be nested. -/
  recursionLimit : Nat := 64
  /-- The patterns of names that are never loaded. -/
  exclude : List String := []
  /-- Variables of every render, looked up last. -/
  sharedVariables : List (String × Value) := []
  recursionLimit_pos : 1 ≤ recursionLimit := by decide
  recursionLimit_le : recursionLimit ≤ maxRecursionLimit := by decide

/-- Why settings are refused. -/
inductive SettingsFault
  | load (fault : LoadFault)
  /-- The recursion limit is out of range. -/
  | limit (value : Int)
  deriving Repr, Inhabited

/-- The wording of a fault. -/
def SettingsFault.message : SettingsFault → String
  | load fault => fault.message
  | limit value =>
    "$.recursion_limit: must be a positive number not above " ++ toString maxRecursionLimit ++
      ", got " ++ toString value

namespace Settings

/-- Settings with the given parts; the recursion limit must lie between one and the largest. -/
def ofParts (templateRoot defaultEncoding : String) (limit : Int) (exclude : List String)
    (sharedVariables : List (String × Value)) : Except SettingsFault Settings :=
  if h : 1 ≤ limit ∧ limit ≤ maxRecursionLimit then
    .ok
      { templateRoot, defaultEncoding, exclude, sharedVariables
        recursionLimit := limit.toNat
        recursionLimit_pos := by omega
        recursionLimit_le := by omega }
  else .error (.limit limit)

/-- The defaults. -/
def defaults : Settings := {}

/-- The schema of settings. -/
def schema : Schema :=
  .record "EngineConfig"
    [("template_root", .text, some (.str defaults.templateRoot)),
      ("default_encoding", .text, some (.str defaults.defaultEncoding)),
      ("recursion_limit", .integer, some (.int defaults.recursionLimit)),
      ("exclude", .list .text, some (.list [])),
      ("shared_variables", .dict .text .any, some (.dict []))]

/-- The settings that the fields of a loaded record give; a field of another shape than the schema
asks for gives its default. -/
def ofFields (fields : List (String × Loaded)) : Except SettingsFault Settings :=
  ofParts ((fields.lookup "template_root").bind Loaded.text? |>.getD defaults.templateRoot)
    ((fields.lookup "default_encoding").bind Loaded.text? |>.getD defaults.defaultEncoding)
    ((fields.lookup "recursion_limit").bind Loaded.int? |>.getD defaults.recursionLimit)
    ((fields.lookup "exclude").elim [] fun x => x.items.filterMap Loaded.text?)
    ((fields.lookup "shared_variables").elim [] fun x => x.bindings)

/-- Loads settings from a raw value. -/
def ofValue (v : Value) : Except SettingsFault Settings :=
  match schema.load "$" v with
  | .ok (.record _ fields) => ofFields fields
  | .ok _ => .ok defaults
  | .error fault => .error (.load fault)

/-- A configuration that says nothing gives the defaults. -/
theorem ofValue_null : ofValue .null = .ok defaults := by
  rw [ofValue, schema, Schema.record, Schema.load_record_null]
  rfl

end Settings

end Stencil

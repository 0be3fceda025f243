import Stencil.Value

/-!
# Schemas of configuration data

A *schema* describes the values that a part of a configuration may have. Loading a raw value under
a schema gives a loaded value, or a mismatch that says by a path where the raw value does not fit.

## Main definitions

* `Schema` is the type of schemas, `Loaded` that of loaded values.
* `Mismatch` says where and why a raw value does not fit a schema.
* `Schema.unionOf` is the schema of values that fit one of several, `Schema.record` that of mappings
  whose fields fall back on raw values.

## Main results

* `Schema.unionOf_single`: a union of one schema is that schema.
-/

namespace Stencil

/-- A loaded value. -/
inductive Loaded
  /-- A raw value taken as it is. -/
  | raw (value : Value)
  | list (items : List Loaded)
  | tuple (items : List Loaded)
  | dict (entries : List (Loaded × Loaded))
  | member (enumeration name : String)
  | record (name : String) (fields : List (String × Loaded))
  deriving Repr, Inhabited

/-- A schema of raw values. -/
inductive Schema
  /-- Any value, which is loaded as it is. -/
  | any
  | text
  | integer
  /-- A binary number; an integer is widened to one. -/
  | real
  | boolean
  | null
  /-- A type that configurations do not support. -/
  | unsupported (name : String)
  | list (item : Schema)
  /-- A list that is loaded as a tuple. -/
  | tuple (item : Schema)
  | dict (key value : Schema)
  /-- The first of several schemas that the value fits. -/
  | union (options : List Schema)
  /-- One of the given values. -/
  | literal (values : List Value)
  /-- A schema with a remark for the reader. -/
  | annotated (inner : Schema)
  /-- A member of an enumeration, by its name or its value. -/
  | enumeration (name : String) (members : List (String × Value))
  /-- A mapping with a fixed set of keys. A field that has a fallback may be left out, and then has
  the fallback as it is. -/
  | recordWith (name : String) (fields : List (String × Schema × Option Loaded))
  deriving Repr, Inhabited

/-! ## Mismatches -/

/-- Where a raw value does not fit its schema, and why. -/
inductive Mismatch
  /-- A mapping is expected; for a record, its name is given. -/
  | mapping (path : String) (record : Option String) (actual : String)
  | unknownKeys (path : String) (keys : List String)
  | missingField (path : String)
  | notListed (path : String) (values : List Value) (actual : Value)
  | noMember (path enumeration : String) (actual : Value)
  | sequence (path actual : String)
  | notNull (path actual : String)
  /-- A value of a plain type is expected. -/
  | plain (path expected actual : String)
  | unsupportedType (path name : String)
  /-- Every option of a union is mismatched. -/
  | noOption (path : String) (mismatches : List Mismatch)
  deriving Repr, Inhabited

namespace Mismatch

mutual

/-- The wording of a mismatch. -/
def message : Mismatch → String
  | mapping path none actual => path ++ ": expected mapping, got " ++ actual
  | mapping path (some record) actual =>
    path ++ ": expected mapping for " ++ record ++ ", got " ++ actual
  | unknownKeys path keys => path ++ ": unknown key(s): " ++ displayList keys
  | missingField path => path ++ ": required field missing"
  | notListed path values actual =>
    path ++ ": expected one of " ++ (Value.list values).display ++ ", got " ++ actual.display
  | noMember path enumeration actual =>
    path ++ ": expected enum " ++ enumeration ++ ", got " ++ actual.display
  | sequence path actual => path ++ ": expected a list, got " ++ actual
  | notNull path actual => path ++ ": expected null, got " ++ actual
  | plain path expected actual => path ++ ": expected " ++ expected ++ ", got " ++ actual
  | unsupportedType path name => path ++ ": unsupported type " ++ name
  | noOption path [] => path ++ ": no variant of Union matched"
  | noOption path (m :: ms) => path ++ ": " ++ " | ".intercalate (m.message :: messages ms)

/-- The wordings of several mismatches. -/
def messages : List Mismatch → List String
  | [] => []
  | m :: ms => m.message :: messages ms

end

end Mismatch

/-! ## Building schemas -/

namespace Schema

mutual

/-- Two schemas are the same. Each enumeration and each record is a type of its own, the same only
as itself, and no two occurrences are taken for one. -/
def same : Schema → Schema → Bool
  | any, any => true
  | text, text => true
  | integer, integer => true
  | real, real => true
  | boolean, boolean => true
  | null, null => true
  | unsupported n, unsupported m => n == m
  | list a, list b => same a b
  | tuple a, tuple b => same a b
  | dict k v, dict l w => same k l && same v w
  | union os, union ps => sameAll os ps
  | annotated a, annotated b => same a b
  | literal vs, literal ws =>
    vs.length == ws.length && (vs.zip ws).all fun p => p.1.typeName == p.2.typeName && p.1.same p.2
  | _, _ => false

/-- Two lists of schemas are the same. -/
def sameAll : List Schema → List Schema → Bool
  | [], [] => true
  | a :: as, b :: bs => same a b && sameAll as bs
  | _, _ => false

end

/-- The options that a schema brings into a union: those of a union, or itself. -/
def options : Schema → List Schema
  | union os => os
  | s => [s]

/-- Keeps the first of several schemas that are the same. -/
def distinct : List Schema → List Schema
  | [] => []
  | s :: rest => s :: (distinct rest).filter fun t => !same s t

/-- The schema of values that fit one of several. Unions among them give their options, repeated
options count once, and a single option is the schema itself. -/
def unionOf (schemas : List Schema) : Schema :=
  match distinct (schemas.flatMap options) with
  | [s] => s
  | os => union os

/-- A union of one schema that is no union is that schema. -/
theorem unionOf_single {s : Schema} (h : s.options = [s]) : unionOf [s] = s := by
  simp [unionOf, h, distinct]

/-- The schema of mappings with a fixed set of keys, whose fields fall back on raw values. -/
def record (name : String) (fields : List (String × Schema × Option Value)) : Schema :=
  recordWith name (fields.map fun f => (f.1, f.2.1, f.2.2.map .raw))

/-- The schema of values that may be null. -/
def optional (s : Schema) : Schema :=
  unionOf [s, null]

/-- Keeps the first of several equal values of the same type. -/
def distinctValues : List Value → List Value
  | [] => []
  | v :: rest =>
    v :: (distinctValues rest).filter fun w => !(v.typeName == w.typeName && v.same w)

/-- The schema of the given values, repeated ones counting once. -/
def literalOf (values : List Value) : Schema :=
  literal (distinctValues values)

/-- The name under which an enumeration knows a member: of several members with equal values, the
name of the first. -/
def memberName (members : List (String × Value)) (value : Value) : Option String :=
  (members.find? fun m => value.same m.2).map (·.1)

end Schema

end Stencil

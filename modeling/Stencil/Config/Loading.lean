import Stencil.Config.Schema

/-!
# Loading raw values under schemas

Loading follows the schema. A boolean is never taken for a number where a number is expected; an
integer is widened where a binary number is expected; a value that is null stands for an empty
mapping where a record is expected. Of a union, the first option that fits is taken.

## Main definitions

* `LoadFault` is what loading can end in.
* `Schema.load` loads a raw value, given the path to it.

## Main results

* `Schema.load_any`: under the schema of all values a value is loaded as it is.
-/

namespace Stencil

/-- Why a raw value cannot be loaded. -/
inductive LoadFault
  | mismatch (m : Mismatch)
  /-- An integer is beyond the largest binary number. -/
  | integerTooLarge
  /-- A key of a mapping was loaded to something that cannot be a key. -/
  | unusableKey
  /-- A member is looked for in an enumeration that has none. -/
  | emptyEnumeration
  deriving Repr, Inhabited

/-- The wording of a fault. -/
def LoadFault.message : LoadFault → String
  | mismatch m => m.message
  | integerTooLarge => "int too large to convert to float"
  | unusableKey => "unusable key of a mapping"
  | emptyEnumeration => "enumeration without members"

namespace Loaded

/-- Equality of loaded values as keys of a mapping. -/
def sameKey : Loaded → Loaded → Bool
  | raw v, raw w => v.same w
  | member e m, member f n => e == f && m == n
  | _, _ => false

/-- Whether a loaded value can be a key: a plain one or a member can. -/
def isKey : Loaded → Bool
  | raw (.list _) => false
  | raw (.dict _) => false
  | raw _ => true
  | member _ _ => true
  | _ => false

/-- A loaded key in a path. -/
def pathText : Loaded → String
  | raw v => v.text
  | member e m => e ++ "." ++ m
  | record name _ => name
  | list _ => "[]"
  | tuple _ => "()"
  | dict _ => "\x7b\x7d"

/-- Binds a key in a mapping: an equal key keeps its place and gets the new value. -/
def bind (key value : Loaded) : List (Loaded × Loaded) → List (Loaded × Loaded)
  | [] => [(key, value)]
  | e :: es => if key.sameKey e.1 then (e.1, value) :: es else e :: bind key value es

/-- The mapping with the given entries, bound one after the other. -/
def bindAll (entries : List (Loaded × Loaded)) : List (Loaded × Loaded) :=
  entries.foldl (fun done e => bind e.1 e.2 done) []

/-- The string that a loaded value is. -/
def text? : Loaded → Option String
  | raw (.str s) => some s
  | _ => none

/-- The integer that a loaded value is. -/
def int? : Loaded → Option Int
  | raw (.number (.int n)) => some n
  | _ => none

/-- The items of a loaded list. -/
def items : Loaded → List Loaded
  | list xs => xs
  | raw (.list vs) => vs.map raw
  | _ => []

/-- The raw values that a loaded mapping binds to names. -/
def bindings : Loaded → List (String × Value)
  | dict entries =>
    entries.filterMap fun
      | (raw (.str name), raw v) => some (name, v)
      | _ => none
  | _ => []

end Loaded

/-! ## Paths -/

/-- The path to an item of a list. -/
def itemPath (path : String) (index : Nat) : String :=
  path ++ "[" ++ toString index ++ "]"

/-- The path to the keys of a mapping. -/
def keyPath (path : String) : String :=
  path ++ ".<key>"

/-- The path to the value under a loaded key of a mapping. -/
def valuePath (path : String) (key : Loaded) : String :=
  path ++ "." ++ key.pathText

/-- The path to a field of a record. -/
def fieldPath (path name : String) : String :=
  path ++ "." ++ name

namespace Schema

/-- The binary number nearest to an integer. -/
def widen (n : Int) : Except LoadFault Loaded :=
  match Binary64.ofInt? n with
  | some x => .ok (.raw (.number (.binary x)))
  | none => .error .integerTooLarge

/-- A value of a plain type. -/
def loadPlain (path expected : String) (accepts : Value → Bool) (v : Value) :
    Except LoadFault Loaded :=
  if accepts v then .ok (.raw v) else .error (.mismatch (.plain path expected v.typeName))

/-- A binary number, or an integer that is widened to one. -/
def loadReal (path : String) : Value → Except LoadFault Loaded
  | .number (.int n) => widen n
  | .number (.binary x) => .ok (.raw (.number (.binary x)))
  | v => .error (.mismatch (.plain path "float" v.typeName))

/-- The member that a value stands for: a string is looked up among the names first, and then as any
other value among the values. -/
def memberOf? (members : List (String × Value)) (v : Value) : Option String :=
  let named :=
    match v with
    | .str s => (members.lookup s).map fun w => (memberName members w).getD s
    | _ => none
  named.or (memberName members v)

/-- A member of an enumeration. -/
def loadMember (path name : String) (members : List (String × Value)) (v : Value) :
    Except LoadFault Loaded :=
  match memberOf? members v with
  | some m => .ok (.member name m)
  | none =>
    if members.isEmpty then .error .emptyEnumeration
    else .error (.mismatch (.noMember path name v))

/-- Loads items one by one, with their index in the path. -/
def loadItems (loadItem : String → Value → Except LoadFault Loaded) (path : String)
    (items : List Value) : Except LoadFault (List Loaded) :=
  items.zipIdx.mapM fun e => loadItem (itemPath path e.2) e.1

/-- The items of a list. -/
def itemsOf (path : String) : Value → Except LoadFault (List Value)
  | .list items => .ok items
  | v => .error (.mismatch (.sequence path v.typeName))

/-- Loads an entry of a mapping: the key is loaded before the value, and names it in the path. -/
def loadEntry (loadKey loadValue : String → Value → Except LoadFault Loaded) (path : String)
    (e : Value × Value) : Except LoadFault (Loaded × Loaded) := do
  let key ← loadKey (keyPath path) e.1
  let value ← loadValue (valuePath path key) e.2
  if key.isKey then return (key, value) else throw .unusableKey

/-- The entries of a raw mapping for a record; null has none. -/
def recordEntries (path name : String) : Value → Except LoadFault (List (Value × Value))
  | .null => .ok []
  | .dict entries => .ok entries
  | v => .error (.mismatch (.mapping path (some name) v.typeName))

/-- Loads a field of a record from the entries of a raw mapping; one that is left out has its
fallback. -/
def loadField (loadWritten : String → Value → Except LoadFault Loaded) (path : String)
    (entries : List (Value × Value)) (name : String) (fallback : Option Loaded) :
    Except LoadFault Loaded :=
  match Value.lookup name entries, fallback with
  | some v, _ => loadWritten (fieldPath path name) v
  | none, some x => .ok x
  | none, none => .error (.mismatch (.missingField (fieldPath path name)))

/-- The keys of a raw mapping that are not among the given names, as sorted text. -/
def unknownKeys (names : List String) (entries : List (Value × Value)) : List String :=
  let unknown := entries.filter fun e =>
    match e.1 with
    | .str s => !names.contains s
    | _ => true
  (unknown.map (·.1.text)).mergeSort (fun a b => a ≤ b)

/-- An empty mapping has no key too many. -/
@[simp] theorem unknownKeys_nil (names : List String) : unknownKeys names [] = [] := by
  simp [unknownKeys]

mutual

/-- Loads a raw value, found at the given path. -/
def load (path : String) : Schema → Value → Except LoadFault Loaded
  | any, v => .ok (.raw v)
  | annotated inner, v => inner.load path v
  | recordWith name fields, v => do
    let entries ← recordEntries path name v
    let unknown := unknownKeys (fields.map (·.1)) entries
    if unknown.isEmpty then
      return .record name (← loadFields path entries fields)
    else throw (.mismatch (.unknownKeys path unknown))
  | literal values, v =>
    if values.any v.same then .ok (.raw v) else .error (.mismatch (.notListed path values v))
  | union options, v => loadFirst path v [] options
  | dict key value, v =>
    match v with
    | .dict entries => do
      let loaded ←
        entries.mapM (loadEntry (fun p k => key.load p k) (fun p w => value.load p w) path)
      return .dict (Loaded.bindAll loaded)
    | v => .error (.mismatch (.mapping path none v.typeName))
  | list item, v => do
    return .list (← loadItems (fun p w => item.load p w) path (← itemsOf path v))
  | tuple item, v => do
    return .tuple (← loadItems (fun p w => item.load p w) path (← itemsOf path v))
  | enumeration name members, v => loadMember path name members v
  | null, v =>
    match v with
    | .null => .ok (.raw .null)
    | v => .error (.mismatch (.notNull path v.typeName))
  | text, v => loadPlain path "str" (fun v => v matches .str _) v
  | integer, v => loadPlain path "int" (fun v => v matches .number (.int _)) v
  | real, v => loadReal path v
  | boolean, v => loadPlain path "bool" (fun v => v matches .bool _) v
  | unsupported name, _ => .error (.mismatch (.unsupportedType path name))

/-- Loads a raw value under the first of several schemas that it fits; `failed` holds the
mismatches of those tried before. The schema of null takes null alone, and does not report a
mismatch. -/
def loadFirst (path : String) (v : Value) (failed : List Mismatch) :
    List Schema → Except LoadFault Loaded
  | [] => .error (.mismatch (.noOption path failed))
  | null :: rest =>
    match v with
    | .null => .ok (.raw .null)
    | _ => loadFirst path v failed rest
  | s :: rest =>
    match s.load path v with
    | .error (.mismatch m) => loadFirst path v (failed ++ [m]) rest
    | result => result

/-- Loads the fields of a record in order from the entries of a raw mapping. -/
def loadFields (path : String) (entries : List (Value × Value)) :
    List (String × Schema × Option Loaded) → Except LoadFault (List (String × Loaded))
  | [] => .ok []
  | (name, schema, fallback) :: rest => do
    let x ← loadField (fun p w => schema.load p w) path entries name fallback
    let xs ← loadFields path entries rest
    return (name, x) :: xs

end

/-- Under the schema of all values a value is loaded as it is. -/
@[simp] theorem load_any (path : String) (v : Value) : any.load path v = .ok (.raw v) := by
  rw [load]

/-- A record that is null has the fallbacks of its fields. -/
theorem load_record_null (path name : String) (fields : List (String × Schema × Option Loaded)) :
    (recordWith name fields).load path .null =
      (loadFields path [] fields).map (Loaded.record name) := by
  rw [load]
  change (if (unknownKeys (fields.map (·.1)) []).isEmpty = true then _ else _) = _
  rw [unknownKeys_nil]
  cases loadFields path [] fields <;> rfl

end Schema

end Stencil

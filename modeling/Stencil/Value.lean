import Stencil.Number
import Stencil.Text.Display

/-!
# Host values

The values that a caller hands to the engine and that a configuration document holds: null,
booleans, strings, numbers, lists, mappings with keys of any scalar kind, and objects of the host
that show some capabilities.

## Main definitions

* `Value` is the type of host values, `HostObject` an object with its capabilities.
* `Value.same` is equality of values: numbers are compared by value across their kinds, and a
  boolean is equal to the number one or zero.
* `Value.typeName` names the type of a value in messages, `Value.display` shows a value there.
* `Value.dictOf` builds a mapping: of two equal keys the first keeps its place and the last gives
  the value.
-/

namespace Stencil

/-- An object of the host: the name of its class and what it can be used as. -/
structure HostObject where
  /-- The name of the object's class. -/
  className : String
  /-- How the object describes its own type, if it does. -/
  typeName : Option String
  /-- The string the object can be used as. -/
  text : Option String
  /-- The boolean the object can be used as. -/
  flag : Option Bool
  /-- The number the object can be used as. -/
  number : Option Number
  deriving Repr, DecidableEq

/-- A value of the host. -/
inductive Value
  | null
  | bool (b : Bool)
  | str (s : String)
  | number (n : Number)
  | list (items : List Value)
  | dict (entries : List (Value × Value))
  | host (object : HostObject)
  deriving Repr, Inhabited

namespace Value

/-- An integer value. -/
abbrev int (n : Int) : Value := number (.int n)

/-- The numeric value of a boolean or a number. -/
def numeric? : Value → Option Number
  | bool b => some (.int (if b then 1 else 0))
  | number n => some n
  | _ => none

mutual

/-- Equality of values. Two host objects are never the same: each stands for itself alone. -/
def same : Value → Value → Bool
  | null, null => true
  | str s, str t => s == t
  | list xs, list ys => sameItems xs ys
  | dict es, dict fs => es.length == fs.length && sameEntries es fs
  | bool b, v =>
    match v.numeric? with
    | some n => (Number.int (if b then 1 else 0)).same n
    | none => false
  | number m, v =>
    match v.numeric? with
    | some n => m.same n
    | none => false
  | _, _ => false

/-- Equality item by item. -/
def sameItems : List Value → List Value → Bool
  | [], [] => true
  | x :: xs, y :: ys => same x y && sameItems xs ys
  | _, _ => false

/-- Every entry of the first mapping has an equal one in the second. -/
def sameEntries : List (Value × Value) → List (Value × Value) → Bool
  | [], _ => true
  | (k, v) :: es, fs => fs.any (fun f => same k f.1 && same v f.2) && sameEntries es fs

end

/-- The name of a value's type in messages. -/
def typeName : Value → String
  | null => "NoneType"
  | bool _ => "bool"
  | str _ => "str"
  | number (.int _) => "int"
  | number (.binary _) => "float"
  | number (.decimal _) => "Decimal"
  | list _ => "list"
  | dict _ => "dict"
  | host h => h.className

mutual

/-- The shown form of a value in messages. -/
def display : Value → String
  | null => "None"
  | bool b => if b then "True" else "False"
  | str s => Stencil.display s
  | number (.decimal d) => "Decimal(" ++ Stencil.display d.text ++ ")"
  | number n => n.exactText
  | list items => "[" ++ ", ".intercalate (displayItems items) ++ "]"
  | dict entries => "\x7b" ++ ", ".intercalate (displayEntries entries) ++ "\x7d"
  | host h => "<" ++ h.className ++ " object>"

/-- The shown forms of the items of a list. -/
def displayItems : List Value → List String
  | [] => []
  | v :: vs => display v :: displayItems vs

/-- The shown forms of the entries of a mapping. -/
def displayEntries : List (Value × Value) → List String
  | [] => []
  | (k, v) :: es => (display k ++ ": " ++ display v) :: displayEntries es

end

/-- A value as plain text: a string and a decimal stand for themselves, any other value is shown. -/
def text : Value → String
  | str s => s
  | number n => n.exactText
  | v => v.display

/-- A value that counts as absent where a default is at hand: null, false, zero and what is
empty. -/
def isEmpty : Value → Bool
  | null => true
  | bool b => !b
  | str s => s.isEmpty
  | number n => n.isZero
  | list items => items.isEmpty
  | dict entries => entries.isEmpty
  | host _ => false

/-- Binds a key in a mapping: an equal key keeps its place and gets the new value, another one is
appended. -/
def bind (key value : Value) : List (Value × Value) → List (Value × Value)
  | [] => [(key, value)]
  | e :: es => if key.same e.1 then (e.1, value) :: es else e :: bind key value es

/-- The mapping with the given entries, later ones winning. -/
def dictOf (entries : List (Value × Value)) : Value :=
  dict (entries.foldl (fun d e => bind e.1 e.2 d) [])

/-- The value that a mapping binds to a name. -/
def lookup (name : String) (entries : List (Value × Value)) : Option Value :=
  (entries.find? fun e => e.1.same (str name)).map (·.2)

end Value

end Stencil

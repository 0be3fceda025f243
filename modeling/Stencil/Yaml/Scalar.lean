import Stencil.Value

/-!
# Values of plain scalars

A scalar of a YAML document that is written without quotes stands for null, a boolean, an integer,
a binary number or, failing all of these, for the string it is. The forms are those of the core
schema of YAML 1.2; numbers may have underscores between their digits.

## Main definitions

* `Yaml.nullWords`, `Yaml.trueWords` and `Yaml.falseWords` list the words with a meaning.
* `Yaml.integer?` and `Yaml.real?` read numbers.
* `Yaml.plainValue` is the value of a plain scalar.

## Main results

* `Yaml.plainValue_empty`: the empty scalar is null.
-/

namespace Stencil

namespace Yaml

/-! ## Words -/

/-- The words for null; the empty scalar is one of them. -/
def nullWords : List String := ["", "~", "null", "Null", "NULL"]

/-- The words for true. -/
def trueWords : List String := ["true", "True", "TRUE"]

/-- The words for false. -/
def falseWords : List String := ["false", "False", "FALSE"]

/-! ## Numbers -/

/-- Splits a sign from the front of a text. -/
def splitSign : List Char → Bool × List Char
  | '-' :: rest => (true, rest)
  | '+' :: rest => (false, rest)
  | rest => (false, rest)

/-- The value of an ASCII digit of bases up to sixteen. -/
def digit (c : Char) : Option Nat :=
  if '0' ≤ c ∧ c ≤ '9' then some (c.toNat - '0'.toNat)
  else if 'a' ≤ c ∧ c ≤ 'f' then some (c.toNat - 'a'.toNat + 10)
  else if 'A' ≤ c ∧ c ≤ 'F' then some (c.toNat - 'A'.toNat + 10)
  else none

/-- A digit of a base. -/
def isDigitOf (base : Nat) (c : Char) : Bool :=
  match digit c with
  | some d => d < base
  | none => false

/-- The number that digits of a base write, with underscores among them; at least one digit is
needed. -/
def natural? (base : Nat) (s : List Char) : Option Nat :=
  let digits := s.filter (· ≠ '_')
  if digits.isEmpty || !digits.all (isDigitOf base) then none
  else some (digits.foldl (fun n c => base * n + (digit c).getD 0) 0)

/-- The magnitude of an integer, in one of the bases two, eight, ten and sixteen. -/
def magnitude? : List Char → Option Nat
  | '0' :: 'b' :: rest => natural? 2 rest
  | '0' :: 'o' :: rest => natural? 8 rest
  | '0' :: 'x' :: rest => natural? 16 rest
  | s => natural? 10 s

/-- An integer: a sign or a digit comes first. -/
def integer? (s : List Char) : Option Int :=
  match s with
  | '_' :: _ => none
  | _ =>
    let (negative, rest) := splitSign s
    (magnitude? rest).map fun n => if negative then -(n : Int) else n

/-- The exponent of a number: a sign, which may be left out unless it is `signed`, and digits. -/
def isExponent (signed : Bool) : List Char → Bool
  | c :: rest =>
    if c = '-' ∨ c = '+' then !rest.isEmpty && rest.all (isDigitOf 10)
    else !signed && (c :: rest).all (isDigitOf 10)
  | [] => false

/-- What follows the digits of a number: nothing, unless the exponent is `due`, or an exponent. -/
def isTail (due signed : Bool) : List Char → Bool
  | [] => !due
  | c :: rest => (c = 'e' ∨ c = 'E') && isExponent signed rest

/-- A digit or an underscore. -/
def isDigitPart (c : Char) : Bool :=
  isDigitOf 10 c || c = '_'

/-- A number with a point or an exponent, without its sign. A number without an exponent needs a
point; one that begins with the point needs a digit behind it and a sign in its exponent. -/
def isReal (s : List Char) : Bool :=
  let whole := s.takeWhile isDigitPart
  match whole, s.dropWhile isDigitPart with
  | [], '.' :: rest =>
    (rest.takeWhile isDigitPart).any (isDigitOf 10) &&
      isTail false true (rest.dropWhile isDigitPart)
  | [], _ => false
  | '_' :: _, _ => false
  | _, '.' :: rest => isTail false false (rest.dropWhile isDigitPart)
  | _, rest => isTail true false rest

/-- A binary number. -/
def real? (s : List Char) : Option Binary64 :=
  let (negative, rest) := splitSign s
  if String.ofList rest ∈ [".inf", ".Inf", ".INF"] then some (.infinite negative)
  else if String.ofList s ∈ [".nan", ".NaN", ".NAN"] then some .nan
  else if isReal rest then Number.binaryOfText? (String.ofList (s.filter (· ≠ '_')))
  else none

/-! ## Values -/

/-- The number that a plain scalar writes. -/
def number? (s : List Char) : Option Number :=
  match integer? s with
  | some n => some (.int n)
  | none => (real? s).map .binary

/-- The value of a plain scalar. -/
def plainValue (s : List Char) : Value :=
  let text := String.ofList s
  if text ∈ nullWords then .null
  else if text ∈ trueWords then .bool true
  else if text ∈ falseWords then .bool false
  else
    match number? s with
    | some n => .number n
    | none => .str text

/-- The empty scalar is null. -/
theorem plainValue_empty : plainValue [] = .null := by
  cbv

end Yaml

end Stencil

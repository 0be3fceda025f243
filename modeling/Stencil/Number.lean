import Stencil.Number.Decimal
import Stencil.Number.Shortest

/-!
# Numbers of three kinds

Templates compute with integers of any size, binary numbers that the host supplies, and decimals,
which are also what a literal with a point denotes.

## Main definitions

* `Number` is the sum of the three kinds.
* `Number.add` adds two numbers; a binary number and a decimal have no common kind.
* `Number.same` compares exact values across the kinds.
* `Number.text` writes a number in the output of a template: a number without a fraction is
  written as an integer when it is binary.
* `Number.exactText` writes a number of each kind in its own format.
* `Number.binaryOfText?` reads a binary number.
-/

namespace Stencil

/-- A number that a template computes with. -/
inductive Number
  | int (n : Int)
  | binary (x : Binary64)
  | decimal (d : Decimal)
  deriving Repr, DecidableEq

/-- Why a sum of two numbers does not exist. -/
inductive ArithmeticError
  /-- A binary number meets a decimal. -/
  | mixedKinds
  /-- An integer is beyond the largest binary number. -/
  | integerTooLarge
  /-- The sum is beyond the largest decimal. -/
  | decimalOverflow
  /-- The decimals are opposite infinities. -/
  | invalidOperation
  deriving Repr, DecidableEq

namespace Number

/-- The binary number nearest to an integer. -/
def binaryOfInt (n : Int) : Except ArithmeticError Binary64 :=
  match Binary64.ofInt? n with
  | some x => .ok x
  | none => .error .integerTooLarge

/-- The rounded sum of two decimals. -/
def addDecimal (d e : Decimal) : Except ArithmeticError Number :=
  match d.add? e with
  | .ok sum => .ok (decimal sum)
  | .error .overflow => .error .decimalOverflow
  | .error .invalid => .error .invalidOperation

/-- The sum of two numbers. An integer takes the kind of the other operand. -/
def add : Number → Number → Except ArithmeticError Number
  | int m, int n => .ok (int (m + n))
  | int m, binary y => do return binary ((← binaryOfInt m).add y)
  | binary x, int n => do return binary (x.add (← binaryOfInt n))
  | binary x, binary y => .ok (binary (x.add y))
  | int m, decimal e => addDecimal (.ofInt m) e
  | decimal d, int n => addDecimal d (.ofInt n)
  | decimal d, decimal e => addDecimal d e
  | binary _, decimal _ => .error .mixedKinds
  | decimal _, binary _ => .error .mixedKinds

/-- The exact value of a number: a finite one as a sign, a coefficient without trailing zeros and
an exponent of ten, so that equal values are equal here. -/
inductive Exact
  | finite (negative : Bool) (coefficient : Nat) (exponent : Int)
  | infinite (negative : Bool)
  | nan
  deriving Repr, DecidableEq

/-- The exact value of `± coefficient · 10 ^ exponent`; zero has no sign. -/
def Exact.of (negative : Bool) (coefficient : Nat) (exponent : Int) : Exact :=
  let (c, e) := stripZeros coefficient exponent
  .finite (negative && c ≠ 0) c e

/-- The exact value of a number. -/
def exact : Number → Exact
  | int n => .of (n < 0) n.natAbs 0
  | binary .nan => .nan
  | binary (.infinite s) => .infinite s
  | binary (.finite s m e) =>
    let (c, p) := Binary64.toDecimalUnits m e
    .of s c p
  | decimal (.nan _ _) => .nan
  | decimal (.infinite s) => .infinite s
  | decimal (.finite s c e) => .of s c e

/-- Whether two numbers have the same value; no number equals the value that is no number. -/
def same (m n : Number) : Bool :=
  m.exact != .nan && m.exact == n.exact

/-- A number in the format of its kind. -/
def exactText : Number → String
  | int n => toString n
  | binary x => x.text
  | decimal d => d.text

/-- A number as a template prints it. -/
def text : Number → String
  | binary x =>
    match x.toInt? with
    | some n => toString n
    | none => x.text
  | n => n.exactText

/-- Reads a binary number: the one nearest to the decimal that the text writes. -/
def binaryOfText? (s : String) : Option Binary64 :=
  (Decimal.ofText? s).map fun d =>
    match d with
    | .finite negative c e => .ofDecimal negative c e
    | .infinite negative => .infinite negative
    | .nan _ _ => .nan

/-- The number that is zero, of any kind, has the value zero. -/
def isZero (n : Number) : Bool :=
  n.same (int 0)

end Number

end Stencil

import Stencil.Number.Rounding

/-!
# Binary floating-point numbers

The numbers of the 64-bit binary format: a sign, a significand of at most 53 bits and an exponent
of two, besides the infinities and the value that is no number. Every operation computes the exact
rational result first and rounds it once, to nearest with ties to even.

## Main definitions

* `Binary64` is the type of these numbers.
* `Binary64.ofRatio` rounds a quotient of natural numbers.
* `Binary64.ofInt?` is the number nearest to an integer, when the format reaches that far.
* `Binary64.add` is the rounded sum.
* `Binary64.toInt?` is the value of a number without a fraction.
-/

namespace Stencil

/-- A number of the 64-bit binary format. -/
inductive Binary64
  /-- The value that is no number. -/
  | nan
  /-- An infinity. -/
  | infinite (negative : Bool)
  /-- The number `± significand · 2 ^ exponent`. -/
  | finite (negative : Bool) (significand : Nat) (exponent : Int)
  deriving Repr, DecidableEq

namespace Binary64

/-- The exponent of the smallest numbers, whose significand may be short. -/
def minExponent : Int := -1074

/-- The largest exponent of a finite number. -/
def maxExponent : Int := 971

/-- The number of bits of a full significand. -/
def precision : Nat := 53

/-- The exponent of the highest power of two that is at most `num / den`. -/
def magnitude (num den : Nat) : Int :=
  let k : Int := (Nat.log2 num : Int) - Nat.log2 den
  if den * scaling 2 k ≤ num * scaling 2 (-k) then k else k - 1

/-- The multiple of `2 ^ exponent` nearest to `num / den`, in units of `2 ^ exponent`. -/
def unitsAt (num den : Nat) (exponent : Int) : Nat :=
  roundHalfEven (num * scaling 2 (-exponent)) (den * scaling 2 exponent)

/-- The number nearest to `± num / den`. A quotient beyond the largest number by at least half a
unit is infinite. -/
def ofRatio (negative : Bool) (num den : Nat) : Binary64 :=
  if num = 0 then finite negative 0 minExponent
  else
    let e := max (magnitude num den - (precision - 1)) minExponent
    let m := unitsAt num den e
    let (m, e) := if m = Nat.pow 2 precision then (Nat.pow 2 (precision - 1), e + 1) else (m, e)
    if maxExponent < e then infinite negative else finite negative m e

/-- The number nearest to `± coefficient · 10 ^ exponent`. -/
def ofDecimal (negative : Bool) (coefficient : Nat) (exponent : Int) : Binary64 :=
  if coefficient = 0 then finite negative 0 minExponent
  else
    let top := exponent + digitCount coefficient
    if 400 < top then infinite negative
    else if top < -400 then finite negative 0 minExponent
    else ofRatio negative (coefficient * scaling 10 exponent) (scaling 10 (-exponent))

/-- The number nearest to an integer; none when the format has no finite number for it. -/
def ofInt? (n : Int) : Option Binary64 :=
  match ofRatio (n < 0) n.natAbs 1 with
  | finite s m e => some (finite s m e)
  | _ => none

/-- The number `± m`, in units of `2 ^ unit`, as an integer. -/
def signedUnits (negative : Bool) (m : Nat) (exponent unit : Int) : Int :=
  let n : Int := (m * scaling 2 (exponent - unit) : Nat)
  if negative then -n else n

/-- The number nearest to `units · 2 ^ exponent`. -/
def ofUnits (units : Int) (exponent : Int) : Binary64 :=
  ofRatio (units < 0) (units.natAbs * scaling 2 exponent) (scaling 2 (-exponent))

/-- The rounded sum. Opposite infinities have none, and equal numbers of opposite sign add to the
positive zero. -/
def add : Binary64 → Binary64 → Binary64
  | nan, _ => nan
  | _, nan => nan
  | infinite s, infinite t => if s = t then infinite s else nan
  | infinite s, finite _ _ _ => infinite s
  | finite _ _ _, infinite t => infinite t
  | finite s m e, finite t n f =>
    if m = 0 ∧ n = 0 then finite (s && t) 0 minExponent
    else
      let unit := min e f
      ofUnits (signedUnits s m e unit + signedUnits t n f unit) unit

/-- The value of a number that has no fraction. -/
def toInt? : Binary64 → Option Int
  | finite s m e =>
    let unit := scaling 2 (-e)
    if m % unit = 0 then
      let n : Int := (m * scaling 2 e / unit : Nat)
      some (if s then -n else n)
    else none
  | _ => none

/-- The magnitude of a finite number as `coefficient · 10 ^ exponent`. -/
def toDecimalUnits (m : Nat) (e : Int) : Nat × Int :=
  (m * scaling 2 e * scaling 5 (-e), min e 0)

end Binary64

end Stencil

import Stencil.Number.Rounding
import Stencil.Text.Blank
import Stencil.Text.Digit

/-!
# Decimal floating-point numbers

Decimals keep the digits they were written with: `1.50` is `150 · 10 ^ -2`. A sum is exact, with
the smaller of the two exponents, and then rounded to 28 digits, half to even.

## Main definitions

* `Decimal` is the type of these numbers.
* `Decimal.ofText?` reads one.
* `Decimal.text` is the written form, with an exponent only where the digits do not reach the
  decimal point.
* `Decimal.add?` is the rounded sum.

## Main results

* `Decimal.fits_of_short`: a sum of at most 28 digits is not rounded.
-/

namespace Stencil

/-- A decimal number. -/
inductive Decimal
  /-- The number `± coefficient · 10 ^ exponent`. -/
  | finite (negative : Bool) (coefficient : Nat) (exponent : Int)
  /-- An infinity. -/
  | infinite (negative : Bool)
  /-- No number; a payload of zero is not written. -/
  | nan (negative : Bool) (payload : Nat)
  deriving Repr, DecidableEq

namespace Decimal

/-- The number of digits a sum is rounded to. -/
def precision : Nat := 28

/-- The largest exponent of the first digit of a sum. -/
def maxAdjusted : Int := 999999

/-- The smallest exponent of the last digit of a sum. -/
def minExponent : Int := -1000026

/-- Why two decimals have no sum. -/
inductive Fault
  /-- The sum is larger than every finite decimal. -/
  | overflow
  /-- The infinities are opposite. -/
  | invalid
  deriving Repr, DecidableEq

/-- Rounds a coefficient so that its last digit has the exponent `target`, half to even. -/
def roundTo (coefficient : Nat) (exponent target : Int) : Nat :=
  if exponent < target then roundHalfEven coefficient (scaling 10 (target - exponent))
  else coefficient

/-- Rounds a decimal to the precision of sums. A rounding that carries into one more digit drops
the last one, and a value beyond the largest decimal is refused. -/
def fit (negative : Bool) (coefficient : Nat) (exponent : Int) : Except Fault Decimal :=
  let top := maxAdjusted - (precision - 1)
  if coefficient = 0 then
    .ok (finite negative 0 (min (max exponent minExponent) maxAdjusted))
  else
    let target := exponent + digitCount coefficient - precision
    if top < target then .error .overflow
    else
      let target := max target minExponent
      if exponent < target then
        let c := roundTo coefficient exponent target
        let (c, e) :=
          if digitCount c > precision then (c / 10, target + 1) else (c, target)
        if top < e then .error .overflow else .ok (finite negative c e)
      else .ok (finite negative coefficient exponent)

/-- A decimal with no more digits than the precision, and an exponent within reach, is kept as it
is. -/
theorem fits_of_short {negative : Bool} {c : Nat} {e : Int} (hc : c ≠ 0)
    (hdigits : digitCount c ≤ precision) (hlow : minExponent ≤ e)
    (hhigh : e ≤ maxAdjusted - (precision - 1)) :
    fit negative c e = .ok (finite negative c e) := by
  have h1 : ¬ maxAdjusted - (precision - 1) < e + digitCount c - (precision : Int) := by
    omega
  have h2 : ¬ e < max (e + digitCount c - (precision : Int)) minExponent := by
    omega
  simp only [fit, hc, if_false, h1, h2]

/-- The integer `± c · 10 ^ (e - unit)`. -/
def signedUnits (negative : Bool) (c : Nat) (e unit : Int) : Int :=
  let n : Int := (c * scaling 10 (e - unit) : Nat)
  if negative then -n else n

/-- Replaces the smaller of two operands by one unit far below the last digit that the sum keeps,
when it lies wholly below that digit: it then decides the rounding and nothing else. The first
operand is the one with the larger exponent. -/
def condense (c : Nat) (e : Int) (d : Nat) (f : Int) : Nat × Int :=
  let bound := e + min (-1) ((digitCount c : Int) - precision - 2)
  if digitCount d + f - 1 < bound then (1, bound) else (d, f)

/-- The sum of two nonzero decimals, the first having the larger exponent; a sum of zero has the
smaller exponent. -/
def addNonzero (s : Bool) (c : Nat) (e : Int) (t : Bool) (d : Nat) (f : Int) :
    Except Fault Decimal :=
  let (d', f') := condense c e d f
  let total := signedUnits s c e f' + signedUnits t d' f' f'
  if total = 0 then fit false 0 f else fit (total < 0) total.natAbs f'

/-- The sum of zero, with its exponent, and a nonzero decimal: zeros are appended down to the
exponent of the zero as far as the precision allows. -/
def addZero (zeroExponent : Int) (t : Bool) (d : Nat) (f : Int) : Except Fault Decimal :=
  let e := max (min zeroExponent f) (f - precision - 1)
  fit t (d * scaling 10 (f - e)) e

/-- The rounded sum. -/
def add? : Decimal → Decimal → Except Fault Decimal
  | nan s p, _ => .ok (nan s p)
  | _, nan s p => .ok (nan s p)
  | infinite s, infinite t => if s = t then .ok (infinite s) else .error .invalid
  | infinite s, finite _ _ _ => .ok (infinite s)
  | finite _ _ _, infinite t => .ok (infinite t)
  | finite s c e, finite t d f =>
    if c = 0 ∧ d = 0 then fit (s && t) 0 (min e f)
    else if c = 0 then addZero e t d f
    else if d = 0 then addZero f s c e
    else if f ≤ e then addNonzero s c e t d f
    else addNonzero t d f s c e

/-- An integer as a decimal. -/
def ofInt (n : Int) : Decimal :=
  finite (n < 0) n.natAbs 0

/-- The digits of a decimal whose point stands after `point` of them. -/
def placed (digits : List Char) (point : Int) : List Char :=
  if point ≤ 0 then '0' :: '.' :: (List.replicate (-point).toNat '0' ++ digits)
  else if digits.length ≤ point.toNat then
    digits ++ List.replicate (point.toNat - digits.length) '0'
  else digits.take point.toNat ++ '.' :: digits.drop point.toNat

/-- The written magnitude: positional when the exponent is not positive and the first digit stands
at most five zeros behind the point, and otherwise one digit, a fraction and an exponent. -/
def magnitudeText (coefficient : Nat) (exponent : Int) : List Char :=
  let digits := Nat.toDigits 10 coefficient
  let point := exponent + digits.length
  if exponent ≤ 0 ∧ -6 < point then placed digits point
  else
    placed digits 1 ++
      if point = 1 then []
      else 'E' :: (if point < 1 then '-' else '+') :: Nat.toDigits 10 (point - 1).natAbs

/-- The written form of a decimal. -/
def text : Decimal → String
  | finite s c e => String.ofList ((if s then ['-'] else []) ++ magnitudeText c e)
  | infinite s => if s then "-Infinity" else "Infinity"
  | nan s p => (if s then "-NaN" else "NaN") ++ (if p = 0 then "" else toString p)

/-- Splits a sign from the front of a text. -/
def readSign : List Char → Bool × List Char
  | '-' :: rest => (true, rest)
  | '+' :: rest => (false, rest)
  | rest => (false, rest)

/-- Reads an exponent: an optional sign and at least one digit. -/
def readExponent? (s : List Char) : Option Int :=
  let (negative, digits) := readSign s
  if digits.isEmpty || !digits.all isDigit then none
  else some (if negative then -(natOfDigits digits : Int) else natOfDigits digits)

/-- Reads digits with an optional point and an optional exponent. -/
def readFinite? (negative : Bool) (s : List Char) : Option Decimal := do
  let whole := s.takeWhile isDigit
  let rest := s.dropWhile isDigit
  let (fraction, rest) :=
    match rest with
    | '.' :: r => (r.takeWhile isDigit, r.dropWhile isDigit)
    | r => ([], r)
  guard (!(whole ++ fraction).isEmpty)
  let exponent ←
    match rest with
    | [] => some 0
    | c :: r => if c = 'e' ∨ c = 'E' then readExponent? r else none
  return finite negative (natOfDigits (whole ++ fraction)) (exponent - fraction.length)

/-- Reads a decimal: digits with an optional point and exponent, or the name of an infinity or of
no number in any case, with an optional sign and between blanks. -/
def ofText? (s : String) : Option Decimal :=
  let (negative, body) := readSign ((trim s).toList.filter (· ≠ '_'))
  let lower := String.ofList (body.map Char.toLower)
  if lower = "inf" ∨ lower = "infinity" then some (infinite negative)
  else if lower.startsWith "nan" then
    let payload := body.drop 3
    if payload.all isDigit then some (nan negative (natOfDigits payload)) else none
  else readFinite? negative body

end Decimal

end Stencil

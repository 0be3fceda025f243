import Stencil.Number.Binary64

/-!
# The shortest decimal of a binary number

A binary number is written with the fewest decimal digits that read back as that same number; of
the decimals with that many digits the nearest one is taken, and of two equally near ones the one
with the even last digit. The number is written positionally when its decimal exponent is at least
`-4` and below `16`, and otherwise with an exponent of at least two digits.

## Main definitions

* `Shortest.Interval` is the set of decimals that read back as one binary number.
* `Shortest.decimal` is the shortest decimal, as a coefficient and an exponent.
* `Binary64.text` is the written form.
-/

namespace Stencil

namespace Shortest

/-- The decimals that read back as one positive binary number, in units of `10 ^ -places`: those
between `low` and `high`, the ends included or not. -/
structure Interval where
  /-- The number itself. -/
  centre : Nat
  /-- Halfway to the next smaller number. -/
  low : Nat
  /-- Halfway to the next larger number. -/
  high : Nat
  /-- Both ends read back as the number too. -/
  closed : Bool
  /-- The number of decimal places of the unit. -/
  places : Nat

/-- The interval of `m · 2 ^ e`. The ends belong to it when `m` is even, since a tie is read as
the even neighbour; below a power of two the next number is only half as far away. -/
def Interval.of (m : Nat) (e : Int) : Interval :=
  let unit := scaling 2 (e - 2) * scaling 5 (2 - e)
  let below := if m = Nat.pow 2 (Binary64.precision - 1) ∧ Binary64.minExponent < e then 1 else 2
  ⟨4 * m * unit, (4 * m - below) * unit, (4 * m + 2) * unit, m % 2 = 0, (2 - e).toNat⟩

/-- Whether a decimal reads back as the number. -/
def Interval.holds (i : Interval) (n : Nat) : Bool :=
  if i.closed then i.low ≤ n && n ≤ i.high else i.low < n && n < i.high

/-- The multiple of `step` that reads back as the number and is nearest to it, if there is one. -/
def Interval.nearest? (i : Interval) (step : Nat) : Option Nat :=
  let down := i.centre / step * step
  let up := down + step
  match i.holds down, i.holds up with
  | true, true =>
    if i.centre - down < up - i.centre ∨
        i.centre - down = up - i.centre ∧ i.centre / step % 2 = 0 then some down else some up
  | true, false => some down
  | false, true => some up
  | false, false => none

/-- The shortest decimal of the positive number `m · 2 ^ e`, without trailing zeros. -/
def decimal (m : Nat) (e : Int) : Nat × Int :=
  let i := Interval.of m e
  let digits := digitCount i.centre
  let c := (List.range digits).findSome? fun n => i.nearest? (Nat.pow 10 (digits - 1 - n))
  stripZeros (c.getD i.centre) (-(i.places : Int))

/-- Writes a decimal with `point` digits before the decimal point, adding zeros where the digits
do not reach it. A number without a fraction gets the fraction `.0`. -/
def positional (digits : List Char) (point : Int) : List Char :=
  if point ≤ 0 then '0' :: '.' :: (List.replicate (-point).toNat '0' ++ digits)
  else if digits.length ≤ point.toNat then
    digits ++ List.replicate (point.toNat - digits.length) '0' ++ ['.', '0']
  else digits.take point.toNat ++ '.' :: digits.drop point.toNat

/-- The sign and the digits of an exponent, at least two of them. -/
def exponentText (e : Int) : List Char :=
  let digits := Nat.toDigits 10 e.natAbs
  (if e < 0 then '-' else '+') :: (if digits.length < 2 then '0' :: digits else digits)

/-- Writes a decimal with one digit before the point and an exponent. -/
def scientific (digits : List Char) (point : Int) : List Char :=
  (if digits.length ≤ 1 then digits else digits.take 1 ++ '.' :: digits.drop 1) ++
    'e' :: exponentText (point - 1)

/-- The written magnitude of the number `m · 2 ^ e`. -/
def magnitudeText (m : Nat) (e : Int) : List Char :=
  if m = 0 then ['0', '.', '0']
  else
    let (c, p) := decimal m e
    let digits := Nat.toDigits 10 c
    let point := p + digits.length
    if -4 < point ∧ point ≤ 16 then positional digits point else scientific digits point

end Shortest

/-- The written form of a binary number. -/
def Binary64.text : Binary64 → String
  | .nan => "nan"
  | .infinite s => if s then "-inf" else "inf"
  | .finite s m e =>
    String.ofList ((if s then ['-'] else []) ++ Shortest.magnitudeText m e)

end Stencil

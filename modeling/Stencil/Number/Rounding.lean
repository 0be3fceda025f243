/-!
# Rounding quotients and writing digits

Exact arithmetic on natural numbers behind both kinds of inexact number: a quotient rounded to the
nearest integer with ties to the even neighbour, the factors between units, and the decimal digits of
a number.

## Main definitions

* `roundHalfEven num den` is the integer nearest to `num / den`.
* `scaling base z` is `base ^ z`, or one for a negative `z`.
* `digitCount n` is the number of decimal digits of `n`.
* `stripZeros` moves the trailing decimal zeros of a coefficient into its exponent.

## Main results

* `roundHalfEven_error`: the result is at most half a unit away.
* `roundHalfEven_of_dvd`: an exact quotient is its own rounding.
-/

namespace Stencil

/-- The power `base ^ z`, or one when `z` is negative: the number of units `base ^ b` in the larger
unit `base ^ a` is `scaling base (a - b)`. -/
def scaling (base : Nat) (z : Int) : Nat :=
  Nat.pow base z.toNat

/-- The integer nearest to `num / den`; a quotient halfway between two integers goes to the even
one. -/
def roundHalfEven (num den : Nat) : Nat :=
  let q := num / den
  let r := num % den
  if 2 * r < den ∨ 2 * r = den ∧ q % 2 = 0 then q else q + 1

/-- The rounded quotient is at most half a unit away from the exact one. -/
theorem roundHalfEven_error (num : Nat) {den : Nat} (h : 0 < den) :
    2 * num ≤ 2 * (roundHalfEven num den * den) + den ∧
      2 * (roundHalfEven num den * den) ≤ 2 * num + den := by
  have hdiv : num / den * den + num % den = num := by
    rw [Nat.mul_comm]; exact Nat.div_add_mod num den
  have hlt := Nat.mod_lt num h
  unfold roundHalfEven
  simp only
  split
  · constructor <;> omega
  · rw [Nat.add_mul, Nat.one_mul]
    constructor <;> omega

/-- An exact quotient needs no rounding. -/
theorem roundHalfEven_of_dvd (q : Nat) {den : Nat} (h : 0 < den) :
    roundHalfEven (q * den) den = q := by
  simp [roundHalfEven, Nat.mul_div_cancel _ h, h]

/-- The number of decimal digits of a number; zero has one. -/
def digitCount (n : Nat) : Nat :=
  (Nat.toDigits 10 n).length

/-- Moves trailing zeros of the coefficient into the exponent, at most `fuel` of them; `0` keeps
its exponent. -/
def stripZerosWithin : Nat → Nat → Int → Nat × Int
  | 0, c, e => (c, e)
  | fuel + 1, c, e =>
    if c ≠ 0 ∧ c % 10 = 0 then stripZerosWithin fuel (c / 10) (e + 1) else (c, e)

/-- The coefficient without its trailing zeros, and the exponent that keeps the value. Zero is
`0 · 10^0`. -/
def stripZeros (c : Nat) (e : Int) : Nat × Int :=
  if c = 0 then (0, 0) else stripZerosWithin (digitCount c) c e

end Stencil

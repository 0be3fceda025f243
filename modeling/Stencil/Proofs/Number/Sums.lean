import Mathlib.Algebra.Group.Nat.Defs
import Stencil.Number
import Stencil.Proofs.Outcome

/-!
# Numbers without a sum

A binary number and a decimal have no sum. An integer has none with a binary number when it is nearer
to the power of two behind the largest binary number than to that number, or as near. Opposite decimal
infinities have none, and neither have finite decimals whose rounded sum is beyond the largest one.

## Main definitions

* `Number.NoSum` lists the numbers that have no sum.

## Main results

* `Binary64.ofInt?_eq_none_iff`: which integers are beyond the binary numbers.
* `Number.add_error_iff`: the listed numbers have no sum, and all others have one.
-/

namespace Stencil

/-! ## Integers beyond the binary numbers -/

/-- A quotient below an even integer is rounded up to it from halfway on. -/
theorem roundHalfEven_eq_succ_iff {num half t : Nat} (hhalf : 0 < half) (ht : t % 2 = 1)
    (hnum : num < (t + 1) * (2 * half)) :
    roundHalfEven num (2 * half) = t + 1 ↔ t * (2 * half) + half ≤ num := by
  have hden : 0 < 2 * half := Nat.mul_pos Nat.two_pos hhalf
  have hdiv : num / (2 * half) * (2 * half) + num % (2 * half) = num := Nat.div_add_mod' _ _
  have hmod := Nat.mod_lt num hden
  have hquotient : num / (2 * half) < t + 1 := (Nat.div_lt_iff_lt_mul hden).mpr hnum
  unfold roundHalfEven
  generalize num / (2 * half) = q at hdiv hquotient
  generalize num % (2 * half) = r at hdiv hmod
  rcases Nat.eq_or_lt_of_le (Nat.le_of_lt_succ hquotient) with rfl | hlt
  · -- halfway between them, the odd neighbour gives way
    have hodd : ¬ q % 2 = 0 := by omega
    simp only [hodd, and_false, or_false]
    split <;> omega
  · -- further below, the quotient is rounded to less
    have hbelow : (q + 1) * (2 * half) ≤ t * (2 * half) := Nat.mul_le_mul_right _ hlt
    rw [Nat.add_mul, Nat.one_mul] at hbelow
    constructor
    · intro h
      simp only at h
      split at h <;> omega
    · omega

namespace Binary64

/-- The middle between the largest binary number and the power of two behind it. -/
def integerBound : Nat := (2 ^ 54 - 1) * 2 ^ 970

theorem magnitude_one {n : Nat} (h : n ≠ 0) : magnitude n 1 = Nat.log2 n := by
  have hlog : Nat.log2 1 = 0 := by decide
  have hpow : 1 * scaling 2 (Nat.log2 n) ≤ n * scaling 2 (-Nat.log2 n) := by
    have hle := Nat.log2_self_le h
    simpa [scaling] using hle
  simp only [magnitude, hlog, Int.natCast_zero, Int.sub_zero, if_pos hpow]

/-- The exponent of the last bit of a natural number that is rounded to a full significand. -/
theorem ofRatio_of_log2 (negative : Bool) {n : Nat} (h : n ≠ 0) {e : Int}
    (he : e = (Nat.log2 n : Int) - 52) :
    ofRatio negative n 1 =
      if unitsAt n 1 e = 2 ^ precision then
        if maxExponent < e + 1 then .infinite negative else .finite negative (2 ^ 52) (e + 1)
      else if maxExponent < e then .infinite negative else .finite negative (unitsAt n 1 e) e := by
  have hmax : max ((Nat.log2 n : Int) - ((precision : Int) - 1)) minExponent = e := by
    simp only [precision, minExponent]
    omega
  simp only [ofRatio, if_neg h, magnitude_one h, hmax]
  by_cases hcarry : unitsAt n 1 e = 2 ^ precision
  · simp only [hcarry, Nat.pow_eq, if_true]
    rfl
  · simp only [Nat.pow_eq, if_neg hcarry]

/-- The binary number nearest to a natural number is finite below the middle between the largest one
and the power of two behind it, and infinite from there on. The unit `2 ^ k` is half of the last bit of
the largest numbers. -/
theorem ofRatio_one (negative : Bool) (n : Nat) {k : Nat} (hk : maxExponent = k + 1) :
    ((∃ m e, ofRatio negative n 1 = .finite negative m e) ∧ n < (2 ^ 54 - 1) * 2 ^ k) ∨
      (ofRatio negative n 1 = .infinite negative ∧ (2 ^ 54 - 1) * 2 ^ k ≤ n) := by
  have hunit : 0 < 2 ^ k := Nat.two_pow_pos k
  by_cases hn : n = 0
  · subst hn
    exact .inl ⟨⟨0, minExponent, rfl⟩, by omega⟩
  have hlow : 2 ^ Nat.log2 n ≤ n := Nat.log2_self_le hn
  have hup : n < 2 ^ (Nat.log2 n + 1) := Nat.lt_log2_self
  obtain ⟨e, he⟩ : ∃ e : Int, e = Nat.log2 n - 52 := ⟨_, rfl⟩
  rw [ofRatio_of_log2 negative hn he]
  rcases Nat.lt_trichotomy (Nat.log2 n) (53 + k) with hlt | heq | hgt
  · -- even a carry leads to no exponent beyond the largest
    have hsmall : n < 2 ^ 53 * 2 ^ k := by
      rw [← Nat.pow_add]
      exact Nat.lt_of_lt_of_le hup (Nat.pow_le_pow_right Nat.two_pos hlt)
    rw [if_neg (show ¬ maxExponent < e + 1 by omega), if_neg (show ¬ maxExponent < e by omega)]
    refine .inl ⟨?_, by omega⟩
    split <;> exact ⟨_, _, rfl⟩
  · -- the exponent is the largest, and only a carry leads beyond it
    rw [if_pos (show maxExponent < e + 1 by omega), if_neg (show ¬ maxExponent < e by omega)]
    have hnext : n < (2 ^ 53 - 1 + 1) * (2 * 2 ^ k) := by
      have hpow : 2 ^ (53 + k + 1) = 2 ^ 53 * (2 * 2 ^ k) := by
        rw [Nat.pow_succ, Nat.pow_add, Nat.mul_assoc, Nat.mul_comm (2 ^ k)]
      rw [heq, hpow] at hup
      exact hup
    have hunits : unitsAt n 1 e = roundHalfEven n (2 * 2 ^ k) := by
      have hexponent : e = (k + 1 : Nat) := by omega
      have hdown : (-((k + 1 : Nat) : Int)).toNat = 0 := by omega
      rw [hexponent, unitsAt, scaling, scaling, hdown, Int.toNat_natCast, Nat.pow_eq, Nat.pow_eq,
        Nat.pow_zero, Nat.mul_one, Nat.one_mul, Nat.pow_succ, Nat.mul_comm (2 ^ k)]
    have hcarry : unitsAt n 1 e = 2 ^ precision ↔ (2 ^ 53 - 1) * (2 * 2 ^ k) + 2 ^ k ≤ n := by
      rw [hunits]
      exact roundHalfEven_eq_succ_iff hunit (by decide) hnext
    by_cases hhalf : (2 ^ 53 - 1) * (2 * 2 ^ k) + 2 ^ k ≤ n
    · rw [if_pos (hcarry.mpr hhalf)]
      exact .inr ⟨rfl, by omega⟩
    · rw [if_neg (mt hcarry.mp hhalf)]
      exact .inl ⟨⟨_, _, rfl⟩, by omega⟩
  · have hlarge : 2 ^ 54 * 2 ^ k ≤ n := by
      rw [← Nat.pow_add]
      exact Nat.le_trans (Nat.pow_le_pow_right Nat.two_pos (by omega)) hlow
    rw [if_pos (show maxExponent < e + 1 by omega), if_pos (show maxExponent < e by omega), ite_self]
    exact .inr ⟨rfl, by omega⟩

/-- **An integer has no nearest binary number exactly from that middle on**, on both sides of zero. -/
theorem ofInt?_eq_none_iff {n : Int} : ofInt? n = none ↔ integerBound ≤ n.natAbs := by
  have hk : maxExponent = (970 : Nat) + 1 := rfl
  unfold ofInt? integerBound
  rcases ofRatio_one (n < 0) n.natAbs hk with ⟨⟨m, e, hfinite⟩, hlt⟩ | ⟨hinfinite, hle⟩
  · rw [hfinite]
    exact ⟨nofun, fun hle => absurd hle (Nat.not_le_of_lt hlt)⟩
  · rw [hinfinite]
    exact ⟨fun _ => hle, fun _ => rfl⟩

end Binary64

/-! ## Opposite infinities -/

namespace Decimal

theorem fit_ne_invalid (negative : Bool) (c : Nat) (e : Int) : fit negative c e ≠ .error .invalid := by
  unfold fit
  simp only
  repeat' split
  all_goals exact nofun

theorem addNonzero_ne_invalid (s : Bool) (c : Nat) (e : Int) (t : Bool) (d : Nat) (f : Int) :
    addNonzero s c e t d f ≠ .error .invalid := by
  unfold addNonzero
  simp only
  split <;> exact fit_ne_invalid _ _ _

/-- Only opposite infinities have no sum at all. -/
theorem add?_eq_invalid_iff {d e : Decimal} :
    d.add? e = .error .invalid ↔ ∃ s, d = .infinite s ∧ e = .infinite !s := by
  constructor
  · intro h
    unfold add? at h
    split at h
    · cases h
    · cases h
    · next s t =>
      split at h
      · cases h
      · next hne => exact ⟨s, rfl, by rw [Bool.eq_not_of_ne (Ne.symm hne)]⟩
    · cases h
    · cases h
    · split at h
      · exact absurd h (fit_ne_invalid _ _ _)
      · split at h
        · exact absurd h (fit_ne_invalid _ _ _)
        · split at h
          · exact absurd h (fit_ne_invalid _ _ _)
          · split at h <;> exact absurd h (addNonzero_ne_invalid _ _ _ _ _ _)
  · rintro ⟨s, rfl, rfl⟩
    cases s <;> rfl

end Decimal

/-! ## Numbers without a sum -/

namespace Number

/-- The numbers that have no sum, and why. -/
inductive NoSum : Number → Number → ArithmeticError → Prop
  | binaryDecimal {x : Binary64} {d : Decimal} : NoSum (binary x) (decimal d) .mixedKinds
  | decimalBinary {d : Decimal} {x : Binary64} : NoSum (decimal d) (binary x) .mixedKinds
  | intBinary {n : Int} {x : Binary64} (h : Binary64.integerBound ≤ n.natAbs) :
      NoSum (int n) (binary x) .integerTooLarge
  | binaryInt {x : Binary64} {n : Int} (h : Binary64.integerBound ≤ n.natAbs) :
      NoSum (binary x) (int n) .integerTooLarge
  | infinities {s : Bool} :
      NoSum (decimal (.infinite s)) (decimal (.infinite !s)) .invalidOperation
  | decimals {d e : Decimal} (h : d.add? e = .error .overflow) :
      NoSum (decimal d) (decimal e) .decimalOverflow
  | intDecimal {n : Int} {e : Decimal} (h : (Decimal.ofInt n).add? e = .error .overflow) :
      NoSum (int n) (decimal e) .decimalOverflow
  | decimalInt {d : Decimal} {n : Int} (h : d.add? (.ofInt n) = .error .overflow) :
      NoSum (decimal d) (int n) .decimalOverflow

theorem binaryOfInt_error_iff {n : Int} {x : ArithmeticError} :
    binaryOfInt n = .error x ↔ Binary64.integerBound ≤ n.natAbs ∧ x = .integerTooLarge := by
  rw [← Binary64.ofInt?_eq_none_iff, binaryOfInt]
  cases Binary64.ofInt? n <;> simp [eq_comm]

theorem addDecimal_error_iff {d e : Decimal} {x : ArithmeticError} :
    addDecimal d e = .error x ↔ (d.add? e = .error .overflow ∧ x = .decimalOverflow) ∨
      (∃ s, d = .infinite s ∧ e = .infinite !s) ∧ x = .invalidOperation := by
  rw [← Decimal.add?_eq_invalid_iff, addDecimal]
  cases d.add? e with
  | ok total => simp
  | error fault => cases fault <;> simp [eq_comm]

/-- **The listed numbers have no sum, and all others have one.** -/
theorem add_error_iff {m n : Number} {x : ArithmeticError} : m.add n = .error x ↔ NoSum m n x := by
  constructor
  · intro h
    match m, n with
    | int _, int _ => cases h
    | binary _, binary _ => cases h
    | binary _, decimal _ => cases h; exact .binaryDecimal
    | decimal _, binary _ => cases h; exact .decimalBinary
    -- with a binary number, the integer is the first to become one
    | int i, binary y =>
      rcases bind_eq_error.mp h with h | ⟨_, -, h⟩
      · obtain ⟨hbound, rfl⟩ := binaryOfInt_error_iff.mp h
        exact .intBinary hbound
      · cases h
    | binary y, int i =>
      rcases bind_eq_error.mp h with h | ⟨_, -, h⟩
      · obtain ⟨hbound, rfl⟩ := binaryOfInt_error_iff.mp h
        exact .binaryInt hbound
      · cases h
    -- an integer is no infinity
    | int i, decimal e =>
      rcases addDecimal_error_iff.mp h with ⟨hover, rfl⟩ | ⟨⟨s, hs, -⟩, -⟩
      · exact .intDecimal hover
      · cases hs
    | decimal d, int i =>
      rcases addDecimal_error_iff.mp h with ⟨hover, rfl⟩ | ⟨⟨s, -, hs⟩, -⟩
      · exact .decimalInt hover
      · cases hs
    | decimal d, decimal e =>
      rcases addDecimal_error_iff.mp h with ⟨hover, rfl⟩ | ⟨⟨s, rfl, rfl⟩, rfl⟩
      · exact .decimals hover
      · exact .infinities
  · intro h
    cases h with
    | binaryDecimal | decimalBinary => rfl
    | intBinary h | binaryInt h =>
      exact bind_eq_error.mpr (.inl (binaryOfInt_error_iff.mpr ⟨h, rfl⟩))
    | infinities => exact addDecimal_error_iff.mpr (.inr ⟨⟨_, rfl, rfl⟩, rfl⟩)
    | decimals h | intDecimal h | decimalInt h => exact addDecimal_error_iff.mpr (.inl ⟨h, rfl⟩)

end Number

end Stencil

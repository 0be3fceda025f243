import Mathlib.Algebra.Field.Rat
import Mathlib.Algebra.Order.Ring.Rat
import Stencil.Proofs.Expr.Literal

/-!
# How integers are written

Numbers of several kinds have an integer for their value. A binary number is then written as that
integer, without a fraction, but a decimal keeps the digits that it has: its text is that of the integer
only if its exponent is zero, and even then zero may have a sign.

## Main definitions

* `Number.value?` is the value of a finite number.
* `Number.Unscaled` are the integers, and the decimals with exponent zero but for negative zero.

## Main results

* `Decimal.mark_mem_magnitudeText`: a decimal with another exponent has a point or an exponent in its
  text.
* `Number.text_eq_toString_iff`: the numbers that are written like an integer.
* `Number.text_eq_iff_unscaled`: those whose value is the integer.
-/

namespace Stencil

/-! ## The texts of integers -/

/-- An integer is written with its sign and the digits of its magnitude. -/
theorem toList_toString_int (k : ℤ) :
    (toString k).toList = (if k < 0 then ['-'] else []) ++ Nat.toDigits 10 k.natAbs := by
  cases k with
  | ofNat n => simp [Int.toString_eq_repr, Int.repr, Nat.repr]
  | negSucc n => simp [Int.toString_eq_repr, Int.repr, Nat.repr, Int.negSucc_lt_zero]

/-- Different numbers have different digits. -/
theorem toDigits_inj {m n : ℕ} (h : Nat.toDigits 10 m = Nat.toDigits 10 n) : m = n := by
  have hm : Nat.ofDigitChars 10 (Nat.toDigits 10 m) 0 = m :=
    Nat.ofDigitChars_toDigits (by decide) (by decide)
  have hn : Nat.ofDigitChars 10 (Nat.toDigits 10 n) 0 = n :=
    Nat.ofDigitChars_toDigits (by decide) (by decide)
  rw [← hm, h, hn]

/-- A character that is no digit is not among the digits of a number. -/
theorem not_mem_toDigits {c : Char} (h : c.isDigit = false) (n : ℕ) :
    c ∉ Nat.toDigits 10 n := by
  intro hc
  simp [Nat.isDigit_of_mem_toDigits (by decide) (by decide) hc] at h

/-- No integer is written with a point or an exponent. -/
theorem not_mem_toString_int {c : Char} (h : c = '.' ∨ c = 'E') (k : ℤ) :
    c ∉ (toString k).toList := by
  have hdigit : c ∉ Nat.toDigits 10 k.natAbs := by
    apply not_mem_toDigits
    rcases h with rfl | rfl <;> decide
  rw [toList_toString_int]
  rcases h with rfl | rfl <;> by_cases hk : k < 0 <;> simp [hk, hdigit]

/-! ## The texts of decimals -/

namespace Decimal

/-- A magnitude with exponent zero is its digits. -/
theorem magnitudeText_zero (c : ℕ) : magnitudeText c 0 = Nat.toDigits 10 c := by
  have hpos : 0 < (Nat.toDigits 10 c).length := Nat.length_toDigits_pos
  simp only [magnitudeText, Int.zero_add]
  rw [if_pos (by omega), placed, if_neg (by omega), Int.toNat_natCast, if_pos le_rfl, Nat.sub_self,
    List.replicate_zero, List.append_nil]

/-- **A magnitude with another exponent is written with a point or an exponent.** -/
theorem mark_mem_magnitudeText {c : ℕ} {e : ℤ} (he : e ≠ 0) :
    '.' ∈ magnitudeText c e ∨ 'E' ∈ magnitudeText c e := by
  have hpos : 0 < (Nat.toDigits 10 c).length := Nat.length_toDigits_pos
  unfold magnitudeText
  simp only
  by_cases hplaced : e ≤ 0 ∧ -6 < e + ((Nat.toDigits 10 c).length : ℤ)
  · -- the point stands among the digits, or in front of all of them
    rw [if_pos hplaced, placed]
    split
    · simp
    · rw [if_neg (by omega)]
      simp
  · -- the point stands behind the first digit, which is not its place without an exponent
    rw [if_neg hplaced, if_neg (by omega)]
    simp

theorem toList_text_finite (s : Bool) (c : ℕ) (e : ℤ) :
    (finite s c e).text.toList = (if s then ['-'] else []) ++ magnitudeText c e := by
  simp [text]

/-- An integer is written alike as a decimal. -/
theorem text_ofInt (k : ℤ) : (ofInt k).text = toString k := by
  apply String.toList_inj.mp
  rw [ofInt, toList_text_finite, magnitudeText_zero, toList_toString_int]
  by_cases hk : k < 0 <;> simp [hk]

theorem ofInt_inj {m k : ℤ} (h : ofInt m = ofInt k) : m = k := by
  obtain ⟨hsign, habs, -⟩ := Decimal.finite.inj h
  have hiff : m < 0 ↔ k < 0 := decide_eq_decide.mp hsign
  omega

/-- A finite decimal is written like an integer only if it is that integer, as a decimal. -/
theorem eq_ofInt_of_text {s : Bool} {c : ℕ} {e k : ℤ} (h : (finite s c e).text = toString k) :
    finite s c e = ofInt k := by
  have hlist : (if s then ['-'] else []) ++ magnitudeText c e = (toString k).toList := by
    rw [← h, toList_text_finite]
  by_cases he : e = 0
  · subst he
    have hsign : ∀ n, '-' ∉ Nat.toDigits 10 n := not_mem_toDigits (by decide)
    rw [magnitudeText_zero, toList_toString_int] at hlist
    -- the signs agree, and so do the digits behind them
    by_cases hk : k < 0 <;> cases s <;>
      simp only [hk, if_true, if_false, Bool.false_eq_true, List.nil_append,
        List.singleton_append] at hlist
    · exact absurd (hlist ▸ List.mem_cons_self) (hsign c)
    · have hdigits : c = k.natAbs := toDigits_inj (List.cons.inj hlist).2
      rw [ofInt, hdigits, decide_eq_true hk]
    · have hdigits : c = k.natAbs := toDigits_inj hlist
      rw [ofInt, hdigits, decide_eq_false hk]
    · exact absurd (hlist ▸ List.mem_cons_self) (hsign k.natAbs)
  · exfalso
    rcases mark_mem_magnitudeText (c := c) he with hmark | hmark
    · exact not_mem_toString_int (.inl rfl) k (hlist ▸ List.mem_append_right _ hmark)
    · exact not_mem_toString_int (.inr rfl) k (hlist ▸ List.mem_append_right _ hmark)

end Decimal

/-! ## The texts of numbers -/

namespace Number

/-- The value of a finite number. -/
def value? : Number → Option ℚ
  | int n => some n
  | binary (.finite s m e) => some ((if s then -1 else 1) * m * 2 ^ e)
  | decimal (.finite s c e) => some ((if s then -1 else 1) * c * 10 ^ e)
  | _ => none

/-- An integer, or a decimal with exponent zero that is not the negative zero. -/
def Unscaled : Number → Prop
  | int _ => True
  | decimal (.finite s c e) => e = 0 ∧ (s = true → c ≠ 0)
  | _ => False

variable {n : Number} {k : ℤ}

theorem Written.exists_value (h : n.Written) : ∃ q, n.value? = some q := by
  match n with
  | int m => exact ⟨_, rfl⟩
  | decimal (.finite s c e) => exact ⟨_, rfl⟩

/-- **The integers and finite decimals that are written like an integer** are that integer, of either
kind. -/
theorem text_eq_toString_iff (h : n.Written) :
    n.text = toString k ↔ n = int k ∨ n = decimal (.ofInt k) := by
  constructor
  · intro htext
    match n with
    | int m =>
      have hdecimal : Decimal.ofInt m = .ofInt k :=
        Decimal.eq_ofInt_of_text ((Decimal.text_ofInt m).trans htext)
      exact .inl (congrArg int (Decimal.ofInt_inj hdecimal))
    | decimal (.finite s c e) => exact .inr (congrArg decimal (Decimal.eq_ofInt_of_text htext))
  · rintro (rfl | rfl)
    · rfl
    · exact Decimal.text_ofInt k

theorem unscaled_ofInt (k : ℤ) : (decimal (.ofInt k)).Unscaled := by
  refine ⟨rfl, fun hk => ?_⟩
  have : k < 0 := of_decide_eq_true hk
  omega

/-- The value of a number that is not scaled says which number it is, but for the kind. -/
theorem Unscaled.eq_of_value (h : n.Unscaled) (hvalue : n.value? = some (k : ℚ)) :
    n = int k ∨ n = decimal (.ofInt k) := by
  match n with
  | int m =>
    have hm : m = k := by simpa [value?] using hvalue
    exact .inl (congrArg int hm)
  | decimal (.finite s c e) =>
    obtain ⟨rfl, hzero⟩ := h
    right
    -- without an exponent, the sign and the coefficient are those of the integer
    cases s with
    | false =>
      have hc : (c : ℤ) = k := by
        have : ((c : ℤ) : ℚ) = k := by simpa [value?] using hvalue
        exact_mod_cast this
      rw [Decimal.ofInt, ← hc]
      simp
    | true =>
      have hc : -(c : ℤ) = k := by
        have : ((-(c : ℤ) : ℤ) : ℚ) = k := by simpa [value?] using hvalue
        exact_mod_cast this
      have hpos : 0 < c := Nat.pos_of_ne_zero (hzero rfl)
      rw [Decimal.ofInt, ← hc]
      simp [hpos]

/-- **An integer or finite decimal with an integer for its value is written like that integer exactly
if it is not scaled.** -/
theorem text_eq_iff_unscaled (h : n.Written) (hvalue : n.value? = some (k : ℚ)) :
    n.text = toString k ↔ n.Unscaled := by
  rw [text_eq_toString_iff h]
  constructor
  · rintro (rfl | rfl)
    · trivial
    · exact unscaled_ofInt k
  · exact fun hunscaled => hunscaled.eq_of_value hvalue

/-- A number that is scaled is written with a point or an exponent, or is the negative zero. -/
theorem text_of_scaled (h : n.Written) (hscaled : ¬ n.Unscaled) :
    '.' ∈ n.text.toList ∨ 'E' ∈ n.text.toList ∨ n.text = "-0" := by
  match n with
  | int m => exact absurd trivial hscaled
  | decimal (.finite s c e) =>
    by_cases he : e = 0
    · subst he
      have hzero : s = true ∧ c = 0 := by
        by_contra hne
        exact hscaled ⟨rfl, fun hs hc => hne ⟨hs, hc⟩⟩
      obtain ⟨rfl, rfl⟩ := hzero
      exact .inr (.inr rfl)
    · have htext : (decimal (.finite s c e)).text.toList = _ := Decimal.toList_text_finite s c e
      rw [htext]
      rcases Decimal.mark_mem_magnitudeText (c := c) he with hmark | hmark
      · exact .inl (List.mem_append_right _ hmark)
      · exact .inr (.inl (List.mem_append_right _ hmark))

end Number

end Stencil

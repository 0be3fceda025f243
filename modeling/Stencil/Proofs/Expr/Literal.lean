import Stencil.Proofs.Expr.Failing
import Stencil.Proofs.Expr.RoundTrip
import Stencil.Proofs.Expr.Variables

/-!
# Values of literal expressions

The literal expressions are those in which no variable occurs. What one of them evaluates to, a value or
an error, is the same in every scope and without one; only where there is no scope could an evaluation
fail for want of variables, and a literal expression asks for none.

The numbers in a literal expression are those that are written in it and sums of them: integers and
finite decimals, never a binary number and never an infinity. So its evaluation fails with an error of
the author's, or because a sum is beyond the largest decimal.

## Main definitions

* `Number.Written` are the numbers that numerals and their sums are.

## Main results

* `Number.written_add`: a sum of such numbers is one of them.
* `Expr.kind_of_isLiteral`: a literal expression has a string, a boolean or a number for its value.
* `Expr.eval_error_of_isLiteral`: how the evaluation of a literal expression can fail.
* `Expr.literal_iff_variable_free`: literal expressions have no variables, and see no scope.
-/

namespace Stencil

/-! ## Numbers in literals -/

/-- An integer or a finite decimal. -/
def Number.Written : Number → Prop
  | int _ => True
  | decimal (.finite _ _ _) => True
  | _ => False

namespace Decimal

theorem fit_finite {negative : Bool} {c : Nat} {e : Int} {d : Decimal}
    (h : fit negative c e = .ok d) : ∃ s c e, d = .finite s c e := by
  unfold fit at h
  simp only at h
  repeat' split at h
  all_goals cases h
  all_goals exact ⟨_, _, _, rfl⟩

theorem addNonzero_finite {s t : Bool} {c d : Nat} {e f : Int} {total : Decimal}
    (h : addNonzero s c e t d f = .ok total) : ∃ s c e, total = .finite s c e := by
  unfold addNonzero at h
  simp only at h
  split at h <;> exact fit_finite h

/-- A sum of finite decimals is finite. -/
theorem add?_finite {s t : Bool} {c d : Nat} {e f : Int} {total : Decimal}
    (h : (finite s c e).add? (finite t d f) = .ok total) : ∃ s c e, total = .finite s c e := by
  rw [add?] at h
  split at h
  · exact fit_finite h
  split at h
  · exact fit_finite h
  split at h
  · exact fit_finite h
  split at h <;> exact addNonzero_finite h

end Decimal

namespace Number

variable {m n : Number}

theorem written_numeralValue (text : String) : (numeralValue text).Written := by
  unfold numeralValue
  simp only
  split <;> trivial

theorem addDecimal_written {s t : Bool} {c d : Nat} {e f : Int} {total : Number}
    (h : addDecimal (.finite s c e) (.finite t d f) = .ok total) : total.Written := by
  unfold addDecimal at h
  split at h
  · next hsum =>
    cases h
    obtain ⟨_, _, _, rfl⟩ := Decimal.add?_finite hsum
    trivial
  · cases h
  · cases h

/-- A sum of integers and finite decimals is one of them. -/
theorem written_add (hm : m.Written) (hn : n.Written) {total : Number}
    (h : m.add n = .ok total) : total.Written := by
  match m, n with
  | int _, int _ =>
    cases h
    trivial
  | int _, decimal (.finite _ _ _) => exact addDecimal_written h
  | decimal (.finite _ _ _), int _ => exact addDecimal_written h
  | decimal (.finite _ _ _), decimal (.finite _ _ _) => exact addDecimal_written h

/-- Integers and finite decimals have a sum, or it is beyond the largest decimal. -/
theorem NoSum.of_written {x : ArithmeticError} (h : NoSum m n x) (hm : m.Written)
    (hn : n.Written) : x = .decimalOverflow := by
  cases h with
  | binaryDecimal | binaryInt | infinities => cases hm
  | decimalBinary | intBinary => cases hn
  | decimals | intDecimal | decimalInt => rfl

end Number

/-! ## Evaluation -/

namespace Expr

variable {scope : Scope}

/-- An operation other than `+` has a boolean for its value. -/
theorem exists_ofBool_of_eval {op : BinaryOp} {left right : Expr} {m : Model} (hop : op ≠ .add)
    (h : (binary op left right).eval scope = .ok m) : ∃ b, m = .ofBool b := by
  cases op with
  | add => exact absurd rfl hop
  | and =>
    rw [eval_binary_and] at h
    obtain ⟨l, -, h⟩ := bind_eq_ok.mp h
    split at h
    · obtain ⟨r, -, h⟩ := bind_eq_ok.mp h
      exact ⟨r, (Except.ok.inj h).symm⟩
    · exact ⟨false, (Except.ok.inj h).symm⟩
  | or =>
    rw [eval_binary_or] at h
    obtain ⟨l, -, h⟩ := bind_eq_ok.mp h
    split at h
    · exact ⟨true, (Except.ok.inj h).symm⟩
    · obtain ⟨r, -, h⟩ := bind_eq_ok.mp h
      exact ⟨r, (Except.ok.inj h).symm⟩
  | eq | ne =>
    rw [eval] at h
    obtain ⟨l, -, h⟩ := bind_eq_ok.mp h
    obtain ⟨r, -, h⟩ := bind_eq_ok.mp h
    obtain ⟨b, -, h⟩ := bind_eq_ok.mp h
    exact ⟨_, (Except.ok.inj h).symm⟩

/-- A sum is a text, or the sum of two numbers. -/
theorem sum_cases {left right : Expr} {l r m : Model} (h : sum left right l r = .ok m) :
    (∃ s, m = .ofText s) ∨ ∃ a b total, l.number = some a ∧ r.number = some b ∧
      a.add b = .ok total ∧ m = .ofNumber total := by
  unfold sum at h
  split at h
  · next a b ha hb =>
    split at h
    · next total hadd => exact .inr ⟨a, b, total, ha, hb, hadd, (Except.ok.inj h).symm⟩
    · cases h
  · obtain ⟨s, -, h⟩ := bind_eq_ok.mp h
    obtain ⟨t, -, h⟩ := bind_eq_ok.mp h
    exact .inl ⟨_, (Except.ok.inj h).symm⟩

/-- The numbers that a literal expression has for values are integers and finite decimals. -/
theorem written_of_isLiteral {e : Expr} (hliteral : e.isLiteral = true) (hwf : e.WellFormed)
    {m : Model} {n : Number} (h : e.eval scope = .ok m) (hn : m.number = some n) : n.Written := by
  induction e generalizing m n with
  | str | bool =>
    cases h
    cases hn
  | number value text =>
    cases h
    cases hn
    rw [hwf.2]
    exact Number.written_numeralValue text
  | var => cases hliteral
  | group inner ih => exact ih hliteral hwf h hn
  | not operand ih =>
    rw [eval] at h
    obtain ⟨v, -, h⟩ := bind_eq_ok.mp h
    obtain ⟨b, -, h⟩ := bind_eq_ok.mp h
    cases h
    cases hn
  | binary op left right ihl ihr =>
    by_cases hop : op = .add
    · subst hop
      obtain ⟨hleft, hright⟩ := isLiteral_binary.mp hliteral
      obtain ⟨-, -, hleftWf, hrightWf⟩ := hwf
      rw [eval] at h
      obtain ⟨l, hl, h⟩ := bind_eq_ok.mp h
      obtain ⟨r, hr, h⟩ := bind_eq_ok.mp h
      rcases sum_cases h with ⟨s, rfl⟩ | ⟨a, b, total, ha, hb, hadd, rfl⟩
      · cases hn
      · cases hn
        exact Number.written_add (ihl hleft hleftWf hl ha) (ihr hright hrightWf hr hb) hadd
    · obtain ⟨b, rfl⟩ := exists_ofBool_of_eval hop h
      cases hn

/-- A literal expression has a string, a boolean or a number for its value. -/
theorem kind_of_isLiteral {e : Expr} (hliteral : e.isLiteral = true) {m : Model}
    (h : e.eval scope = .ok m) :
    (∃ s, m = .ofText s) ∨ (∃ b, m = .ofBool b) ∨ ∃ n, m = .ofNumber n := by
  induction e generalizing m with
  | str s =>
    cases h
    exact .inl ⟨s, rfl⟩
  | number value text =>
    cases h
    exact .inr (.inr ⟨value, rfl⟩)
  | bool b =>
    cases h
    exact .inr (.inl ⟨b, rfl⟩)
  | var => cases hliteral
  | group inner ih => exact ih hliteral h
  | not operand =>
    rw [eval] at h
    obtain ⟨v, -, h⟩ := bind_eq_ok.mp h
    obtain ⟨b, -, h⟩ := bind_eq_ok.mp h
    exact .inr (.inl ⟨!b, (Except.ok.inj h).symm⟩)
  | binary op left right =>
    by_cases hop : op = .add
    · subst hop
      rw [eval] at h
      obtain ⟨l, -, h⟩ := bind_eq_ok.mp h
      obtain ⟨r, -, h⟩ := bind_eq_ok.mp h
      rcases sum_cases h with hs | ⟨_, _, total, -, -, -, rfl⟩
      · exact .inl hs
      · exact .inr (.inr ⟨total, rfl⟩)
    · exact .inr (.inl (exists_ofBool_of_eval hop h))

/-- A literal that is no string is a boolean or a number, and none is both a string and a number. -/
theorem text_or_number_of_isLiteral {e : Expr} (hliteral : e.isLiteral = true)
    {m : Model} (h : e.eval scope = .ok m) : m.text = none ∨ m.number = none := by
  rcases kind_of_isLiteral hliteral h with ⟨s, rfl⟩ | ⟨b, rfl⟩ | ⟨n, rfl⟩
  · exact .inr rfl
  · exact .inl rfl
  · exact .inl rfl

/-- The evaluation of a literal expression comes to literal expressions only. -/
theorem Reaches.isLiteral {e f : Expr} (h : Reaches scope e f) (hliteral : e.isLiteral = true)
    (hwf : e.WellFormed) : f.isLiteral = true ∧ f.WellFormed := by
  induction h with
  | self => exact ⟨hliteral, hwf⟩
  | group _ ih => exact ih hliteral hwf
  | not _ ih => exact ih hliteral hwf.2
  | left _ ih => exact ih (isLiteral_binary.mp hliteral).1 hwf.2.2.1
  | right _ _ _ ih => exact ih (isLiteral_binary.mp hliteral).2 hwf.2.2.2

/-- **The evaluation of a literal expression fails with an error of the author's**, or because a sum is
beyond the largest decimal. It never asks for a variable. -/
theorem eval_error_of_isLiteral {e : Expr} (hliteral : e.isLiteral = true) (hwf : e.WellFormed)
    {x : EvalError} (h : e.eval none = .error x) :
    (∃ cause, x = .value cause) ∨ x = .arithmetic .decimalOverflow := by
  rw [eval_of_isLiteral hliteral none (some fun _ => none)] at h
  rcases eval_mendable_or_arithmetic h with hmendable | ⟨y, rfl⟩
  · cases hmendable <;> exact .inl ⟨_, rfl⟩
  · obtain ⟨m, n, ⟨left, right, l, r, hreach, hl, hr, hm, hn⟩, hadd⟩ := eval_arithmetic_iff.mp h
    obtain ⟨hsum, -, -, hleft, hright⟩ := hreach.isLiteral hliteral hwf
    obtain ⟨hleftLiteral, hrightLiteral⟩ := isLiteral_binary.mp hsum
    have hy := (Number.add_error_iff.mp hadd).of_written
      (written_of_isLiteral hleftLiteral hleft hl hm)
      (written_of_isLiteral hrightLiteral hright hr hn)
    exact .inr (congrArg EvalError.arithmetic hy)

/-! ## Variables and scopes -/

/-- Literal expressions are those in which no variable occurs. -/
theorem isLiteral_iff_not_occurs {e : Expr} : e.isLiteral = true ↔ ∀ x, ¬ Occurs (.var x) e := by
  simp only [isLiteral_iff_names_eq_nil, List.eq_nil_iff_forall_not_mem, mem_names_iff]

section

variable {bound : String → Option Model} {e : Expr} {x : String}

/-- Where there is a scope, no evaluation fails for want of one. -/
theorem eval_ne_noVariables : e.eval (some bound) ≠ .error (.noVariables x) := by
  intro h
  rcases eval_mendable_or_arithmetic h with hmendable | ⟨y, hy⟩
  · cases hmendable
  · cases hy

theorem evalFlag_ne_noVariables : e.evalFlag (some bound) ≠ .error (.noVariables x) := by
  intro h
  rcases evalFlag_error_iff.mp h with h | ⟨m, -, -, hx⟩
  · exact eval_ne_noVariables h
  · cases hx

theorem evalText_ne_noVariables : e.evalText (some bound) ≠ .error (.noVariables x) := by
  intro h
  rcases evalText_error_iff.mp h with h | ⟨m, -, -, -, hx⟩
  · exact eval_ne_noVariables h
  · cases hx

end

/-- **Literal expressions are those without variables, and they see no scope.** An expression is literal
exactly when no variable occurs in it, at whatever depth. Then its evaluation has the same outcome in
every scope as without one, the same value or the same error, to a value, to a boolean and to text; and
without a scope it never fails for want of one. -/
theorem literal_iff_variable_free (e : Expr) :
    (e.isLiteral = true ↔ ∀ x, ¬ Occurs (.var x) e) ∧
      (e.isLiteral = true → ∀ bound : String → Option Model,
        e.eval (some bound) = e.eval none ∧ e.evalFlag (some bound) = e.evalFlag none ∧
          e.evalText (some bound) = e.evalText none) ∧
      (e.isLiteral = true → ∀ x,
        e.eval none ≠ .error (.noVariables x) ∧ e.evalFlag none ≠ .error (.noVariables x) ∧
          e.evalText none ≠ .error (.noVariables x)) := by
  have hsame (hliteral : e.isLiteral = true) (bound : String → Option Model) :
      e.eval (some bound) = e.eval none ∧ e.evalFlag (some bound) = e.evalFlag none ∧
        e.evalText (some bound) = e.evalText none := by
    have heval : e.eval (some bound) = e.eval none := eval_of_isLiteral hliteral _ _
    simp only [evalFlag, evalText, heval, and_self]
  refine ⟨isLiteral_iff_not_occurs, hsame, fun hliteral x => ?_⟩
  -- without a scope it does what it does in one that binds nothing
  obtain ⟨heval, hflag, htext⟩ := hsame hliteral fun _ => none
  rw [← heval, ← hflag, ← htext]
  exact ⟨eval_ne_noVariables, evalFlag_ne_noVariables, evalText_ne_noVariables⟩

/-- The expression `false && !("a" + 1)`, whose second operand is no boolean. -/
def lazyMistake : Expr :=
  .binary .and (.bool false) (.not (.group (.binary .add (.str "a") (.number (.int 1) "1"))))

/-- A literal expression that would go wrong if all of it were evaluated is false in every scope. -/
theorem lazyMistake_sees_no_scope :
    lazyMistake.isLiteral = true ∧
      ∀ bound, lazyMistake.eval (some bound) = .ok (.ofBool false) := by
  have hliteral : lazyMistake.isLiteral = true := rfl
  obtain ⟨-, hsame, -⟩ := literal_iff_variable_free lazyMistake
  exact ⟨hliteral, fun bound => (hsame hliteral bound).1.trans rfl⟩

end Expr

end Stencil

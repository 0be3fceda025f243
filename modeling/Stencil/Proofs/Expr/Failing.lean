import Stencil.Engine
import Stencil.Proofs.Number.Sums

/-!
# Where evaluation fails

Evaluating an expression evaluates the expressions inside it, the second operand of `&&` and `||` only
where it decides the result. The evaluation fails exactly when an expression that it comes to goes
wrong by itself: a variable has no value, a value is none that its place accepts, or two numbers have
no sum. All but the last are errors that the author of a template can mend; sums of numbers are left to
the arithmetic of the host, which has none for a binary number and a decimal, for an integer beyond the
binary numbers, and for decimals whose sum is beyond the decimals or is that of opposite infinities.

## Main definitions

* `Expr.Reaches` says that the evaluation of an expression comes to another one.
* `Expr.Faults` lists how an expression goes wrong by itself.
* `Expr.Adds` says that an evaluation comes to the sum of two numbers.
* `EvalError.Mendable` is an error that the author of a template can mend.

## Main results

* `Expr.eval_error_iff`: an evaluation fails exactly as an expression that it comes to goes wrong.
* `Expr.eval_arithmetic_iff`: an evaluation fails by arithmetic exactly when it comes to such a sum.
* `Expr.fails_mendably_iff_sums_exist`: evaluation fails with errors that an author can mend, and with
  no others, exactly when all sums that it comes to exist.
-/

namespace Stencil

/-- An error of evaluation that the author of a template can mend: a variable without a value, or a
value that its place does not accept. -/
inductive EvalError.Mendable : EvalError → Prop
  | undefined (name : String) : Mendable (.value (.undefined name))
  | notBoolean (expression actual : String) : Mendable (.value (.notBoolean expression actual))
  | notText (expression actual : String) : Mendable (.value (.notText expression actual))
  | incomparable (left right expression : String) :
      Mendable (.value (.incomparable left right expression))

/-! ## What an evaluation comes to -/

/-- The second operand is evaluated behind this value of the first one. -/
def BinaryOp.GoesOn : BinaryOp → Model → Prop
  | and, l => l.flag = some true
  | or, l => l.flag = some false
  | add, _ => True
  | eq, _ => True
  | ne, _ => True

namespace Expr

/-- The evaluation of an expression comes to another expression. -/
inductive Reaches (scope : Scope) : Expr → Expr → Prop
  | self {e : Expr} : Reaches scope e e
  | group {inner f : Expr} (h : Reaches scope inner f) : Reaches scope (.group inner) f
  | not {operand f : Expr} (h : Reaches scope operand f) : Reaches scope (.not operand) f
  | left {op : BinaryOp} {left right f : Expr} (h : Reaches scope left f) :
      Reaches scope (.binary op left right) f
  | right {op : BinaryOp} {left right f : Expr} {l : Model} (hl : left.eval scope = .ok l)
      (hop : op.GoesOn l) (h : Reaches scope right f) : Reaches scope (.binary op left right) f

/-- What an expression goes wrong with by itself, when those that it evaluates have values. -/
inductive Faults (bound : String → Option Model) : Expr → EvalError → Prop
  | undefined {name : String} (h : bound name = none) :
      Faults bound (.var name) (.value (.undefined name))
  | operand {operand : Expr} {m : Model} (hm : operand.eval (some bound) = .ok m)
      (h : m.flag = none) :
      Faults bound (.not operand) (.value (.notBoolean operand.canonical m.typeName))
  | leftFlag {op : BinaryOp} {left right : Expr} {l : Model} (hop : op = .and ∨ op = .or)
      (hl : left.eval (some bound) = .ok l) (h : l.flag = none) :
      Faults bound (.binary op left right) (.value (.notBoolean left.canonical l.typeName))
  | rightFlag {op : BinaryOp} {left right : Expr} {l r : Model} (hop : op = .and ∨ op = .or)
      (hl : left.eval (some bound) = .ok l) (hgo : op.GoesOn l)
      (hr : right.eval (some bound) = .ok r) (h : r.flag = none) :
      Faults bound (.binary op left right) (.value (.notBoolean right.canonical r.typeName))
  | incomparable {op : BinaryOp} {left right : Expr} {l r : Model} (hop : op = .eq ∨ op = .ne)
      (hl : left.eval (some bound) = .ok l) (hr : right.eval (some bound) = .ok r)
      (h : equal? l r = none) :
      Faults bound (.binary op left right)
        (.value (.incomparable l.typeName r.typeName (binary op left right).canonical))
  | leftText {left right : Expr} {l r : Model} (hl : left.eval (some bound) = .ok l)
      (hr : right.eval (some bound) = .ok r) (htext : l.text = none) (hnumber : l.number = none) :
      Faults bound (.binary .add left right) (.value (.notText left.canonical l.typeName))
  | rightText {left right : Expr} {l r : Model} {s : String}
      (hl : left.eval (some bound) = .ok l) (hr : right.eval (some bound) = .ok r)
      (hleft : left.textOf l = .ok s) (htext : r.text = none) (hnumber : r.number = none) :
      Faults bound (.binary .add left right) (.value (.notText right.canonical r.typeName))
  /-- The one fault that is none of the author's. -/
  | sum {left right : Expr} {l r : Model} {m n : Number} {x : ArithmeticError}
      (hl : left.eval (some bound) = .ok l) (hr : right.eval (some bound) = .ok r)
      (hm : l.number = some m) (hn : r.number = some n) (h : m.add n = .error x) :
      Faults bound (.binary .add left right) (.arithmetic x)

/-! ## Operands -/

section

variable {e left right : Expr} {l r m : Model} {x : EvalError}

theorem flagOf_error_iff :
    e.flagOf m = .error x ↔ m.flag = none ∧ x = .value (.notBoolean e.canonical m.typeName) := by
  unfold flagOf
  cases m.flag <;> simp [eq_comm]

theorem flagOf_ok_iff {b : Bool} : e.flagOf m = .ok b ↔ m.flag = some b := by
  unfold flagOf
  cases m.flag <;> simp

theorem textOf_error_iff :
    e.textOf m = .error x ↔
      m.text = none ∧ m.number = none ∧ x = .value (.notText e.canonical m.typeName) := by
  unfold textOf
  cases m.text <;> cases m.number <;> simp [eq_comm]

theorem compare_error_iff :
    compare e l r = .error x ↔
      equal? l r = none ∧ x = .value (.incomparable l.typeName r.typeName e.canonical) := by
  unfold compare
  cases equal? l r <;> simp [eq_comm]

/-- A number can be used as text. -/
theorem textOf_of_number {n : Number} (h : m.number = some n) : ∃ s, e.textOf m = .ok s := by
  unfold textOf
  rw [h]
  cases m.text <;> exact ⟨_, rfl⟩

/-- Two operands of `+` go wrong as numbers that have no sum, or one of them as text. -/
theorem sum_error_iff :
    sum left right l r = .error x ↔
      (∃ m n y, l.number = some m ∧ r.number = some n ∧ m.add n = .error y ∧ x = .arithmetic y) ∨
        left.textOf l = .error x ∨ ∃ s, left.textOf l = .ok s ∧ right.textOf r = .error x := by
  cases hl : l.number with
  | none =>
    simp only [sum, hl, bind_eq_error]
    simp [pure, Except.pure]
  | some m =>
    obtain ⟨s, hs⟩ := textOf_of_number (e := left) hl
    cases hr : r.number with
    | none =>
      simp only [sum, hl, hr, hs, bind_eq_error]
      simp [pure, Except.pure]
    | some n =>
      obtain ⟨t, ht⟩ := textOf_of_number (e := right) hr
      simp only [sum, hl, hr, hs, ht]
      cases hadd : m.add n <;> simp [hadd, eq_comm]

end

/-! ## Operations -/

section

variable {scope : Scope} {op : BinaryOp} {e left right : Expr} {x : EvalError}

/-- An evaluation to a boolean goes wrong as the evaluation does, or by its value. -/
theorem evalFlag_error_iff :
    e.evalFlag scope = .error x ↔ e.eval scope = .error x ∨ ∃ m, e.eval scope = .ok m ∧
      m.flag = none ∧ x = .value (.notBoolean e.canonical m.typeName) := by
  simp only [evalFlag, bind_eq_error, flagOf_error_iff]

theorem evalText_error_iff :
    e.evalText scope = .error x ↔ e.eval scope = .error x ∨ ∃ m, e.eval scope = .ok m ∧
      m.text = none ∧ m.number = none ∧ x = .value (.notText e.canonical m.typeName) := by
  simp only [evalText, bind_eq_error, textOf_error_iff]

theorem evalFlag_ok_iff {b : Bool} :
    e.evalFlag scope = .ok b ↔ ∃ m, e.eval scope = .ok m ∧ m.flag = some b := by
  simp only [evalFlag, bind_eq_ok, flagOf_ok_iff]

/-- A logical operation goes wrong in its first operand, or in the second where it goes on to it. -/
theorem eval_logical_error_iff (hop : op = .and ∨ op = .or) :
    (binary op left right).eval scope = .error x ↔
      left.evalFlag scope = .error x ∨
        ∃ l, left.eval scope = .ok l ∧ op.GoesOn l ∧ right.evalFlag scope = .error x := by
  rcases hop with rfl | rfl
  · rw [eval_binary_and, bind_eq_error, Bool.exists_bool]
    simp [bind_eq_error, evalFlag_ok_iff, BinaryOp.GoesOn, pure, Except.pure,
      ← exists_and_right, and_assoc]
  · rw [eval_binary_or, bind_eq_error, Bool.exists_bool]
    simp [bind_eq_error, evalFlag_ok_iff, BinaryOp.GoesOn, pure, Except.pure,
      ← exists_and_right, and_assoc]

theorem eval_comparison_error_iff (hop : op = .eq ∨ op = .ne) :
    (binary op left right).eval scope = .error x ↔
      left.eval scope = .error x ∨ ∃ l, left.eval scope = .ok l ∧ (right.eval scope = .error x ∨
        ∃ r, right.eval scope = .ok r ∧ compare (binary op left right) l r = .error x) := by
  rcases hop with rfl | rfl <;>
  · simp only [eval, bind_eq_error]
    simp [pure, Except.pure]

theorem eval_add_error_iff :
    (binary .add left right).eval scope = .error x ↔
      left.eval scope = .error x ∨ ∃ l, left.eval scope = .ok l ∧ (right.eval scope = .error x ∨
        ∃ r, right.eval scope = .ok r ∧ sum left right l r = .error x) := by
  simp only [eval, bind_eq_error]

end

/-! ## Evaluation goes wrong in one place -/

section

variable {bound : String → Option Model} {op : BinaryOp} {e f left right : Expr} {x : EvalError}

/-- How an operation goes wrong: in its first operand, in the second one where it goes on to it, or by
itself. -/
inductive BinaryFails (bound : String → Option Model) (op : BinaryOp) (left right : Expr)
    (x : EvalError) : Prop
  | left (h : left.eval (some bound) = .error x)
  | right {l : Model} (hl : left.eval (some bound) = .ok l) (hgo : op.GoesOn l)
      (h : right.eval (some bound) = .error x)
  | fault (h : Faults bound (.binary op left right) x)

theorem binaryFails_of_logical (hop : op = .and ∨ op = .or)
    (h : (binary op left right).eval (some bound) = .error x) : BinaryFails bound op left right x := by
  rcases (eval_logical_error_iff hop).mp h with h | ⟨l, hl, hgo, h⟩
  · rcases evalFlag_error_iff.mp h with h | ⟨l, hl, hflag, rfl⟩
    · exact .left h
    · exact .fault (.leftFlag hop hl hflag)
  · rcases evalFlag_error_iff.mp h with h | ⟨r, hr, hflag, rfl⟩
    · exact .right hl hgo h
    · exact .fault (.rightFlag hop hl hgo hr hflag)

theorem binaryFails_of_comparison (hop : op = .eq ∨ op = .ne)
    (h : (binary op left right).eval (some bound) = .error x) : BinaryFails bound op left right x := by
  have hgo : ∀ l, op.GoesOn l := by
    rcases hop with rfl | rfl <;> exact fun l => trivial
  rcases (eval_comparison_error_iff hop).mp h with h | ⟨l, hl, h | ⟨r, hr, h⟩⟩
  · exact .left h
  · exact .right hl (hgo l) h
  · obtain ⟨hequal, rfl⟩ := compare_error_iff.mp h
    exact .fault (.incomparable hop hl hr hequal)

theorem binaryFails_of_add (h : (binary .add left right).eval (some bound) = .error x) :
    BinaryFails bound .add left right x := by
  rcases eval_add_error_iff.mp h with h | ⟨l, hl, h | ⟨r, hr, h⟩⟩
  · exact .left h
  · exact .right hl trivial h
  · apply BinaryFails.fault
    rcases sum_error_iff.mp h with ⟨m, n, y, hm, hn, hadd, rfl⟩ | h | ⟨s, hs, h⟩
    · exact .sum hl hr hm hn hadd
    · obtain ⟨htext, hnumber, rfl⟩ := textOf_error_iff.mp h
      exact .leftText hl hr htext hnumber
    · obtain ⟨htext, hnumber, rfl⟩ := textOf_error_iff.mp h
      exact .rightText hl hr hs htext hnumber

/-- An operation that fails goes wrong in one of these ways. -/
theorem binaryFails_of_eval (h : (binary op left right).eval (some bound) = .error x) :
    BinaryFails bound op left right x := by
  cases op with
  | and | or => exact binaryFails_of_logical (by simp) h
  | eq | ne => exact binaryFails_of_comparison (by simp) h
  | add => exact binaryFails_of_add h

/-- What an expression goes wrong with by itself, its evaluation fails with. -/
theorem Faults.eval_eq (h : Faults bound e x) : e.eval (some bound) = .error x := by
  cases h with
  | undefined h => simp only [eval, evalVar, h]
  | operand hm h =>
    rw [eval, bind_eq_error]
    exact .inr ⟨_, hm, bind_eq_error.mpr (.inl (flagOf_error_iff.mpr ⟨h, rfl⟩))⟩
  | leftFlag hop hl h =>
    exact (eval_logical_error_iff hop).mpr (.inl (evalFlag_error_iff.mpr (.inr ⟨_, hl, h, rfl⟩)))
  | rightFlag hop hl hgo hr h =>
    exact (eval_logical_error_iff hop).mpr
      (.inr ⟨_, hl, hgo, evalFlag_error_iff.mpr (.inr ⟨_, hr, h, rfl⟩)⟩)
  | incomparable hop hl hr h =>
    exact (eval_comparison_error_iff hop).mpr
      (.inr ⟨_, hl, .inr ⟨_, hr, compare_error_iff.mpr ⟨h, rfl⟩⟩⟩)
  | leftText hl hr htext hnumber =>
    refine eval_add_error_iff.mpr (.inr ⟨_, hl, .inr ⟨_, hr, sum_error_iff.mpr ?_⟩⟩)
    exact .inr (.inl (textOf_error_iff.mpr ⟨htext, hnumber, rfl⟩))
  | rightText hl hr hleft htext hnumber =>
    refine eval_add_error_iff.mpr (.inr ⟨_, hl, .inr ⟨_, hr, sum_error_iff.mpr ?_⟩⟩)
    exact .inr (.inr ⟨_, hleft, textOf_error_iff.mpr ⟨htext, hnumber, rfl⟩⟩)
  | sum hl hr hm hn h =>
    refine eval_add_error_iff.mpr (.inr ⟨_, hl, .inr ⟨_, hr, sum_error_iff.mpr ?_⟩⟩)
    exact .inl ⟨_, _, _, hm, hn, h, rfl⟩

/-- What goes wrong where an evaluation comes to, the evaluation goes wrong with. -/
theorem Reaches.eval_eq (h : Reaches (some bound) e f) (hf : f.eval (some bound) = .error x) :
    e.eval (some bound) = .error x := by
  induction h with
  | self => exact hf
  | group _ ih =>
    rw [eval]
    exact ih hf
  | not _ ih =>
    rw [eval, bind_eq_error]
    exact .inl (ih hf)
  | @left op _ _ _ _ ih =>
    have hleft := ih hf
    cases op with
    | and | or =>
      exact (eval_logical_error_iff (by simp)).mpr (.inl (evalFlag_error_iff.mpr (.inl hleft)))
    | eq | ne => exact (eval_comparison_error_iff (by simp)).mpr (.inl hleft)
    | add => exact eval_add_error_iff.mpr (.inl hleft)
  | @right op _ _ _ l hl hgo _ ih =>
    have hright := ih hf
    cases op with
    | and | or =>
      exact (eval_logical_error_iff (by simp)).mpr
        (.inr ⟨l, hl, hgo, evalFlag_error_iff.mpr (.inl hright)⟩)
    | eq | ne => exact (eval_comparison_error_iff (by simp)).mpr (.inr ⟨l, hl, .inl hright⟩)
    | add => exact eval_add_error_iff.mpr (.inr ⟨l, hl, .inl hright⟩)

theorem fault_of_eval (h : e.eval (some bound) = .error x) :
    ∃ f, Reaches (some bound) e f ∧ Faults bound f x := by
  induction e with
  | str | number | bool => cases h
  | var name =>
    cases hvalue : bound name with
    | some m => simp only [eval, evalVar, hvalue] at h; cases h
    | none =>
      simp only [eval, evalVar, hvalue] at h
      cases h
      exact ⟨_, .self, .undefined hvalue⟩
  | group inner ih =>
    rw [eval] at h
    obtain ⟨f, hf, hfault⟩ := ih h
    exact ⟨f, .group hf, hfault⟩
  | not operand ih =>
    rw [eval] at h
    rcases bind_eq_error.mp h with h | ⟨m, hm, h⟩
    · obtain ⟨f, hf, hfault⟩ := ih h
      exact ⟨f, .not hf, hfault⟩
    · rcases bind_eq_error.mp h with h | ⟨b, -, h⟩
      · obtain ⟨hflag, rfl⟩ := flagOf_error_iff.mp h
        exact ⟨_, .self, .operand hm hflag⟩
      · cases h
  | binary op left right ihleft ihright =>
    cases binaryFails_of_eval h with
    | left h =>
      obtain ⟨f, hf, hfault⟩ := ihleft h
      exact ⟨f, .left hf, hfault⟩
    | right hl hgo h =>
      obtain ⟨f, hf, hfault⟩ := ihright h
      exact ⟨f, .right hl hgo hf, hfault⟩
    | fault hfault => exact ⟨_, .self, hfault⟩

/-- **An evaluation fails exactly as an expression that it comes to goes wrong by itself.** -/
theorem eval_error_iff :
    e.eval (some bound) = .error x ↔ ∃ f, Reaches (some bound) e f ∧ Faults bound f x := by
  constructor
  · exact fault_of_eval
  · rintro ⟨f, hf, hfault⟩
    exact hf.eval_eq hfault.eval_eq

end

/-! ## Sums of numbers -/

/-- The evaluation comes to the sum of these two numbers. -/
def Adds (scope : Scope) (e : Expr) (m n : Number) : Prop :=
  ∃ left right l r, Reaches scope e (.binary .add left right) ∧ left.eval scope = .ok l ∧
    right.eval scope = .ok r ∧ l.number = some m ∧ r.number = some n

section

variable {bound : String → Option Model} {e : Expr}

/-- A fault is the author's, or a sum of numbers that does not exist. -/
theorem Faults.mendable_or_sum {x : EvalError} (h : Faults bound e x) :
    x.Mendable ∨ ∃ m n y, Adds (some bound) e m n ∧ m.add n = .error y ∧ x = .arithmetic y := by
  cases h with
  | undefined => exact .inl (.undefined _)
  | operand | leftFlag | rightFlag => exact .inl (.notBoolean _ _)
  | incomparable => exact .inl (.incomparable _ _ _)
  | leftText | rightText => exact .inl (.notText _ _)
  | sum hl hr hm hn h => exact .inr ⟨_, _, _, ⟨_, _, _, _, .self, hl, hr, hm, hn⟩, h, rfl⟩

theorem Reaches.trans {scope : Scope} {f g : Expr} (h : Reaches scope e f)
    (h' : Reaches scope f g) : Reaches scope e g := by
  induction h with
  | self => exact h'
  | group _ ih => exact .group (ih h')
  | not _ ih => exact .not (ih h')
  | left _ ih => exact .left (ih h')
  | right hl hgo _ ih => exact .right hl hgo (ih h')

/-- **An evaluation fails with an error of arithmetic exactly when it comes to a sum of two numbers
that does not exist.** -/
theorem eval_arithmetic_iff {y : ArithmeticError} :
    e.eval (some bound) = .error (.arithmetic y) ↔
      ∃ m n, Adds (some bound) e m n ∧ m.add n = .error y := by
  constructor
  · intro h
    obtain ⟨f, hf, hfault⟩ := eval_error_iff.mp h
    rcases hfault.mendable_or_sum with hmend | ⟨m, n, z, ⟨left, right, l, r, hg, hadds⟩, hadd, hz⟩
    · cases hmend
    · cases hz
      exact ⟨m, n, ⟨left, right, l, r, hf.trans hg, hadds⟩, hadd⟩
  · rintro ⟨m, n, ⟨left, right, l, r, hf, hl, hr, hm, hn⟩, hadd⟩
    exact eval_error_iff.mpr ⟨_, hf, .sum hl hr hm hn hadd⟩

theorem eval_mendable_or_arithmetic {x : EvalError} (h : e.eval (some bound) = .error x) :
    x.Mendable ∨ ∃ y, x = .arithmetic y := by
  obtain ⟨f, -, hfault⟩ := eval_error_iff.mp h
  rcases hfault.mendable_or_sum with hmend | ⟨m, n, y, -, -, rfl⟩
  · exact .inl hmend
  · exact .inr ⟨y, rfl⟩

end

end Expr

end Stencil

import Stencil.Proofs.Number.Integral
import Stencil.Proofs.Render.Visit

/-!
# Integers in the output

A sum of integers and finite decimals is one of them, and may have an integer for its value whatever
its kind is. An interpolation writes it as that integer exactly when the sum is not scaled: it is an
integer, or a decimal whose exponent has come out as zero. Which it is depends on how the numerals are
written and how the sums are rounded; without a point in any numeral and without decimals in variables
the sum is an integer.

## Main definitions

* `Expr.SumOf P` are the expressions of numerals, variables, parentheses and `+` whose numerals and
  variables are numbers with the property `P`.

## Main results

* `Expr.SumOf.exists_number`: what sums preserve, such an expression has.
* `integral_output_iff_unscaled`: which sums with an integer for their value are written as that.
-/

namespace Stencil

/-- A number of the kind of integers. -/
def Number.IsInt (n : Number) : Prop := ∃ k, n = int k

theorem Number.isInt_add {m n total : Number} (hm : m.IsInt) (hn : n.IsInt)
    (h : m.add n = .ok total) : total.IsInt := by
  obtain ⟨j, rfl⟩ := hm
  obtain ⟨k, rfl⟩ := hn
  cases h
  exact ⟨j + k, rfl⟩

namespace Expr

/-- A sum of numerals and variables, with parentheses, whose numerals and variables are numbers with
the property. -/
def SumOf (P : Number → Prop) (bound : String → Option Model) : Expr → Prop
  | number value text => value = numeralValue text ∧ P value
  | var x => ∃ n, bound x = some (.ofNumber n) ∧ P n
  | group inner => inner.SumOf P bound
  | binary .add left right => left.SumOf P bound ∧ right.SumOf P bound
  | _ => False

variable {P : Number → Prop} {bound : String → Option Model}

/-- Two numbers are added as numbers. -/
theorem sum_ofNumber {left right : Expr} {m n : Number} {v : Model}
    (h : sum left right (.ofNumber m) (.ofNumber n) = .ok v) :
    ∃ total, m.add n = .ok total ∧ v = .ofNumber total := by
  simp only [sum, Model.ofNumber] at h
  cases hadd : m.add n with
  | error x => simp [hadd] at h
  | ok total =>
    simp only [hadd, Except.ok.injEq] at h
    exact ⟨total, rfl, h.symm⟩

/-- **The value of such an expression is a number with the property**, if sums preserve it. -/
theorem SumOf.exists_number (hP : ∀ {m n total : Number}, P m → P n → m.add n = .ok total → P total)
    {e : Expr} (h : e.SumOf P bound) {v : Model} (hv : e.eval (some bound) = .ok v) :
    ∃ n, v = .ofNumber n ∧ P n := by
  induction e generalizing v with
  | str | bool | not => cases h
  | number value text =>
    cases hv
    exact ⟨value, rfl, h.2⟩
  | var x =>
    obtain ⟨n, hn, hPn⟩ := h
    simp only [eval, evalVar, hn, Except.ok.injEq] at hv
    exact ⟨n, hv.symm, hPn⟩
  | group inner ih => exact ih h hv
  | binary op left right ihl ihr =>
    cases op with
    | add =>
      rw [eval] at hv
      obtain ⟨l, hl, hv⟩ := bind_eq_ok.mp hv
      obtain ⟨r, hr, hv⟩ := bind_eq_ok.mp hv
      obtain ⟨m, rfl, hm⟩ := ihl h.1 hl
      obtain ⟨n, rfl, hn⟩ := ihr h.2 hr
      obtain ⟨total, hadd, rfl⟩ := sum_ofNumber hv
      exact ⟨total, rfl, hP hm hn hadd⟩
    | eq | ne | and | or => cases h

end Expr

/-- An interpolation writes the text of its value. -/
theorem visit_interpolation {job : Job} {s : RenderState} {e : Expr} {text : String}
    (h : e.evalText (some (s.value job)) = .ok text) (p : Place) :
    visit job [.interpolation p e] s = (.ok (), s.write text) := by
  have hinside : e.evalText (some ((s.enterElement (.interpolation p e)).value job)) = .ok text := h
  rw [visit_singleton, runElement, Run.framed_apply, Run.bind_apply, Run.evaluate_apply, hinside]
  rfl

theorem RenderState.write_inj {s : RenderState} {a b : String} :
    s.write a = s.write b ↔ a = b := by
  simp [write]

/-- **A sum with an integer for its value is written as that integer exactly when it is not scaled.**
The value of a sum of numerals and variables, where the variables are integers and finite decimals, is
an integer or a finite decimal, and an interpolation writes its text. If the value is an integer then
that is what is written exactly for an integer, or for a decimal with exponent zero but negative zero;
every other sum is written with a point or an exponent, or as `-0`. If no numeral has a point and all
variables are integers, then the value is an integer and written as such. -/
theorem integral_output_iff_unscaled {job : Job} {s : RenderState} {e : Expr} {v : Model} (p : Place)
    (hsum : e.SumOf Number.Written (s.value job)) (hv : e.eval (some (s.value job)) = .ok v) :
    ∃ n q, v = .ofNumber n ∧ n.value? = some q ∧
      visit job [.interpolation p e] s = (.ok (), s.write n.text) ∧
      (∀ k : ℤ, q = k →
        (visit job [.interpolation p e] s = (.ok (), s.write (toString k)) ↔ n.Unscaled)) ∧
      (¬ n.Unscaled → '.' ∈ n.text.toList ∨ 'E' ∈ n.text.toList ∨ n.text = "-0") ∧
      (e.SumOf Number.IsInt (s.value job) → ∃ k : ℤ, q = k ∧
        visit job [.interpolation p e] s = (.ok (), s.write (toString k))) := by
  obtain ⟨n, rfl, hn⟩ := hsum.exists_number (fun hm hn h => Number.written_add hm hn h) hv
  obtain ⟨q, hq⟩ := hn.exists_value
  have hwritten : visit job [.interpolation p e] s = (.ok (), s.write n.text) := by
    apply visit_interpolation
    rw [Expr.evalText, hv]
    rfl
  refine ⟨n, q, rfl, hq, hwritten, ?_, Number.text_of_scaled hn, ?_⟩
  · -- what is written says which text it is, and the text which number
    rintro k rfl
    rw [hwritten, Prod.mk.injEq, RenderState.write_inj]
    simpa using Number.text_eq_iff_unscaled hn hq
  · intro hints
    obtain ⟨n', heq, k, rfl⟩ := hints.exists_number Number.isInt_add hv
    cases heq
    have hk : (k : ℚ) = q := by simpa [Number.value?] using hq
    exact ⟨k, hk.symm, hwritten⟩

/-- The sum `x + (2)`. -/
def oneMoreThanTwo : Expr := .binary .add (.var "x") (.group (.number (.int 2) "2"))

/-- A host decimal without a fraction stays one in a sum, and is written as an integer. -/
theorem integral_output_of_decimal :
    let job : Job := ⟨"", .defaults, [("x", .number (.decimal (.finite false 3 0)))]⟩
    let s := RenderState.initial ⟨"", [], "", none, true⟩ (.new .empty "")
    oneMoreThanTwo.SumOf Number.Written (s.value job) ∧
      oneMoreThanTwo.eval (some (s.value job)) =
        .ok (.ofNumber (.decimal (.finite false 5 0))) ∧
      visit job [.interpolation ⟨1, 1⟩ oneMoreThanTwo] s = (.ok (), s.write "5") := by
  intro job s
  have hsum : oneMoreThanTwo.SumOf Number.Written (s.value job) :=
    ⟨⟨_, rfl, trivial⟩, by decide, trivial⟩
  have hv : oneMoreThanTwo.eval (some (s.value job)) =
      .ok (.ofNumber (.decimal (.finite false 5 0))) := by rfl
  obtain ⟨n, q, hn, hq, -, hwritten, -⟩ := integral_output_iff_unscaled ⟨1, 1⟩ hsum hv
  obtain rfl : Number.decimal (.finite false 5 0) = n := by simpa [Model.ofNumber] using hn
  have hfive : q = ((5 : ℤ) : ℚ) := by simpa [Number.value?] using hq.symm
  have hunscaled : (Number.decimal (.finite false 5 0)).Unscaled := ⟨rfl, by decide⟩
  exact ⟨hsum, hv, (hwritten 5 hfive).mpr hunscaled⟩

/-- The numeral `1.0`. -/
def oneWithPoint : Expr := .number (numeralValue "1.0") "1.0"

/-- **A numeral with a point keeps its zeros**: the value of `1.0` is the integer one, but an
interpolation writes it with a fraction. -/
theorem zero_fraction_written :
    let job : Job := ⟨"", .defaults, []⟩
    let s := RenderState.initial ⟨"", [], "", none, true⟩ (.new .empty "")
    ∃ n, oneWithPoint.SumOf Number.Written (s.value job) ∧
      oneWithPoint.eval (some (s.value job)) = .ok (.ofNumber n) ∧
      n.value? = some ((1 : ℤ) : ℚ) ∧
      visit job [.interpolation ⟨1, 1⟩ oneWithPoint] s = (.ok (), s.write "1.0") ∧
      visit job [.interpolation ⟨1, 1⟩ oneWithPoint] s ≠ (.ok (), s.write (toString (1 : ℤ))) := by
  intro job s
  have hnumeral : numeralValue "1.0" = .decimal (.finite false 10 (-1)) := by decide
  have hwritten : visit job [.interpolation ⟨1, 1⟩ oneWithPoint] s = (.ok (), s.write "1.0") :=
    visit_interpolation (by rfl) _
  refine ⟨_, ⟨rfl, Number.written_numeralValue _⟩, rfl, ?_, hwritten, ?_⟩
  · rw [hnumeral]
    simp [Number.value?]
  · rw [hwritten, Ne, Prod.mk.injEq, RenderState.write_inj]
    decide

end Stencil

import Stencil.Proofs.Template.WellFormed
import Stencil.Template

/-!
# The lines of traces

A trace shows each element on one line, and reports are cut into lines. So nothing that a template is
made of may bring a line break into a trace: literals and the texts of a template are written with
escapes, numerals and names have none, and what else there is are signs and single blanks.

## Main definitions

* `OneLine` are the texts without control characters below the blank, and so without line breaks.

## Main results

* `oneLine_quote`: a quoted literal is one line, whatever its text is.
* `Expr.oneLine_canonical`: the canonical form of a well-formed expression is one line.
* `Element.oneLine_trace`: the trace of a well-formed element is one line.
* `Template.lines_of_trace`: the lines of a template's trace are those of its elements.
-/

namespace Stencil

/-! ## Texts on one line -/

/-- No character of the text is a control character below the blank. -/
def OneLine (s : String) : Prop := ∀ c ∈ s.toList, 32 ≤ c.toNat

instance (s : String) : Decidable (OneLine s) :=
  decidable_of_iff (s.toList.all (32 ≤ ·.toNat)) (by simp [OneLine])

@[simp] theorem oneLine_append {s t : String} : OneLine (s ++ t) ↔ OneLine s ∧ OneLine t := by
  simp [OneLine, or_imp, forall_and]

@[simp] theorem oneLine_join {l : List String} : OneLine (String.join l) ↔ ∀ s ∈ l, OneLine s := by
  simp only [OneLine, String.toList_join, List.mem_flatMap]
  exact ⟨fun h s hs c hc => h c ⟨s, hs, hc⟩, fun h c ⟨s, hs, hc⟩ => h s hs c hc⟩

theorem OneLine.not_mem_newline {s : String} (h : OneLine s) : '\n' ∉ s.toList := fun hmem =>
  absurd (h '\n' hmem) (by decide)

/-- A class of characters without control characters below the blank. -/
theorem le_toNat_of_class {p : Char → Bool} (hp : ∀ n < 32, p (Char.ofNat n) = false) {c : Char}
    (h : p c = true) : 32 ≤ c.toNat := by
  refine Nat.not_lt.mp fun hlow => ?_
  have hnot := hp c.toNat hlow
  rw [Char.ofNat_toNat] at hnot
  simp [h] at hnot

theorem le_toNat_of_isDigit {c : Char} (h : isDigit c = true) : 32 ≤ c.toNat :=
  le_toNat_of_class (p := isDigit) (by decide) h

theorem IsNumeral.oneLine {s : String} (h : IsNumeral s.toList) : OneLine s := by
  unfold OneLine
  generalize s.toList = cs at h
  cases h with
  | whole hdigits => exact fun c hc => le_toNat_of_isDigit (hdigits c hc)
  | @fraction c f digits fraction hdigits hfraction =>
    intro d hd
    simp only [List.mem_cons, List.mem_append] at hd
    rcases hd with rfl | hd | rfl | hd
    · exact le_toNat_of_isDigit (hdigits d List.mem_cons_self)
    · exact le_toNat_of_isDigit (hdigits d (List.mem_cons_of_mem c hd))
    · decide
    · exact le_toNat_of_isDigit (hfraction d (List.mem_cons.mpr hd))

theorem IsWord.oneLine {s : String} (h : IsWord s.toList) : OneLine s := by
  unfold OneLine
  generalize s.toList = cs at h
  obtain ⟨hstart, hparts⟩ := h
  refine List.forall_mem_cons.mpr ⟨?_, fun c hc => ?_⟩
  · exact le_toNat_of_class (p := isNameStart) (by decide) hstart
  · exact le_toNat_of_class (p := isNamePart) (by decide) (hparts c hc)

/-- The digits of a number are on one line. -/
@[simp] theorem oneLine_repr (n : Nat) : OneLine n.repr := by
  intro c hc
  rw [Nat.repr, String.toList_ofList] at hc
  exact le_toNat_of_class (p := Char.isDigit) (by decide)
    (Nat.isDigit_of_mem_toDigits (by decide) (by decide) hc)

/-! ## Quoted literals -/

namespace Quoted

/-- A character is written without control characters. -/
theorem le_toNat_of_mem_encodeChar {c d : Char} (h : d ∈ encodeChar c) : 32 ≤ d.toNat := by
  by_cases hcontrol : c.toNat < 32
  · have hall : ∀ n < 32, OneLine (String.ofList (encodeChar (Char.ofNat n))) := by decide
    have hc := hall c.toNat hcontrol d
    rw [Char.ofNat_toNat, String.toList_ofList] at hc
    exact hc h
  · -- of the other characters only a quote and a backslash are escaped
    have hbreaks : c ≠ '\n' ∧ c ≠ '\r' ∧ c ≠ '\t' := by
      refine ⟨?_, ?_, ?_⟩ <;> rintro rfl <;> exact hcontrol (by decide)
    have hescapes : ∀ d ∈ ['\\', '"'], 32 ≤ d.toNat := by simp
    simp only [encodeChar, hbreaks, hcontrol, if_false] at h
    split at h
    · exact hescapes d h
    split at h
    · exact hescapes d (by simp_all)
    · obtain rfl := List.mem_singleton.mp h
      omega

end Quoted

/-- **A quoted literal is one line**, whatever its text is. -/
@[simp] theorem oneLine_quote (s : String) : OneLine (quote s) := by
  intro c hc
  simp only [quote, String.toList_ofList, List.mem_append, List.mem_cons, List.not_mem_nil,
    or_false] at hc
  rcases hc with (rfl | hc) | rfl
  · decide
  · obtain ⟨d, -, hd⟩ := List.mem_flatMap.mp hc
    exact Quoted.le_toNat_of_mem_encodeChar hd
  · decide

/-! ## Expressions and elements -/

/-- **The canonical form of a well-formed expression is one line.** -/
theorem Expr.oneLine_canonical {e : Expr} (h : e.WellFormed) : OneLine e.canonical := by
  induction e with
  | str s => exact oneLine_quote s
  | number value text => exact h.1.oneLine
  | bool b => cases b <;> decide
  | var name => exact h.1.oneLine
  | group inner ih => simp +decide [canonical, ih h]
  | not operand ih => simp +decide [canonical, ih h.2]
  | binary op left right ihl ihr =>
    have hsign : OneLine op.symbol := by cases op <;> decide
    simp +decide [canonical, hsign, ihl h.2.2.1, ihr h.2.2.2]

namespace Element

theorem oneLine_inclusionText {i : Inclusion} (h : i.WellFormed) : OneLine (inclusionText i) := by
  have hname : ∀ a : IncludeAttribute, OneLine a.name := by
    intro a
    cases a <;> decide
  obtain ⟨htarget, hwritten, -⟩ := h
  have hattribute : ∀ a ∈ i.written, OneLine (" " ++ a.1.name ++ "=" ++ a.2.canonical) := by
    intro a ha
    simp +decide [hname, Expr.oneLine_canonical (hwritten a ha)]
  have hattributes := oneLine_join.mpr (List.forall_mem_map.mpr hattribute)
  simp +decide [inclusionText, Expr.oneLine_canonical htarget, hattributes]

/-- **The trace of a well-formed element is one line**; that of a text always is. -/
theorem oneLine_trace {e : Element} (h : e.isText = true ∨ e.WellFormed) : OneLine e.trace := by
  cases e with
  | text p s => simp +decide [trace]
  | interpolation p value =>
    have hvalue : value.WellFormed := by simpa [isText, WellFormed] using h
    simp +decide [trace, Expr.oneLine_canonical hvalue]
  | conditional p condition body otherwise =>
    have hcondition : condition.WellFormed := by
      cases otherwise with
      | none => exact (h.resolve_left Bool.false_ne_true).1
      | some branch => exact (h.resolve_left Bool.false_ne_true).1
    simp +decide [trace, Expr.oneLine_canonical hcondition]
  | assign p scope name value =>
    have hdirective : OneLine scope.directive := by cases scope <;> decide
    obtain ⟨hname, hvalue⟩ : IsName name.toList ∧ value.WellFormed :=
      h.resolve_left Bool.false_ne_true
    simp +decide [trace, assignText, hdirective, hname.1.oneLine, Expr.oneLine_canonical hvalue]
  | inclusion p i => exact oneLine_inclusionText (h.resolve_left Bool.false_ne_true)

end Element

/-! ## Templates -/

/-- Between lines joined by breaks there is one break less than there are lines. -/
theorem count_intercalate {α : Type} [DecidableEq α] {x : α} {ls : List (List α)}
    (h : ∀ l ∈ ls, x ∉ l) : ([x].intercalate ls).count x = ls.length - 1 := by
  induction ls with
  | nil => rfl
  | cons l ls ih =>
    have hl : l.count x = 0 := List.count_eq_zero.mpr (h l List.mem_cons_self)
    cases ls with
    | nil => simp [hl]
    | cons m ls =>
      rw [List.intercalate_cons_cons, List.count_append, List.count_append, hl,
        ih fun k hk => h k (List.mem_cons_of_mem l hk)]
      simp [Nat.add_comm]

/-- **The lines of a template's trace are those of its elements**, in order. -/
theorem Template.lines_of_trace {t : Template} (h : ∀ e ∈ t.root, OneLine e.trace) :
    t.trace.toList.count '\n' = t.root.length - 1 ∧
      (t.root ≠ [] →
        t.trace.toList.splitOn '\n' = t.root.map fun e => e.trace.toList) := by
  -- no line has the break by which the lines are joined
  have htrace : t.trace.toList = ['\n'].intercalate (t.root.map fun e => e.trace.toList) := by
    rw [Template.trace, String.toList_intercalate, List.map_map]
    rfl
  have hlines : ∀ l ∈ t.root.map fun e => e.trace.toList, '\n' ∉ l := by
    simpa using fun e he => (h e he).not_mem_newline
  rw [htrace]
  constructor
  · rw [count_intercalate hlines, List.length_map]
  · intro hroot
    exact List.splitOn_intercalate '\n' hlines (by simpa using hroot)

end Stencil

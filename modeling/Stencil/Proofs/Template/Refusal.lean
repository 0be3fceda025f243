import Stencil.Proofs.Outcome
import Stencil.Template

/-!
# Why a source is no template

Parsing ends in an issue at a place of the source, or in a failure of a literal attribute that was
to be folded. It never ends in an error of a running template.

## Main definitions

* `TagResult.Placed` says that nothing but an issue goes wrong with a tag.
* `Piece.Unfoldable` is an inclusion with attributes that cannot be folded.
* `Piece.Ends` says that parsing ends at a piece.

## Main results

* `build_failure`: a failure without a place is that of the attributes of an inclusion.
* `build_rejected`: parsing does not go on behind a tag with an issue.
* `parseTemplate_error`: how parsing can fail.
-/

namespace Stencil

/-- The failures of literal attributes that cannot be folded. -/
inductive Failure.OfFolding : Failure → Prop
  | defect (e : Defect) : OfFolding (.defect e)
  | arithmetic (e : ArithmeticError) : OfFolding (.arithmetic e)

/-- A tag that is read or has an issue: nothing else goes wrong with it. -/
def TagResult.Placed {α : Type} (r : TagResult α) : Prop :=
  ∀ x, r ≠ .error (.inr x)

namespace TagResult.Placed

variable {α β : Type}

theorem ok (a : α) : Placed (.ok a : TagResult α) := nofun

theorem issue (i : ParseIssue) : Placed (.error (.inl i) : TagResult α) := nofun

theorem bind {r : TagResult α} {f : α → TagResult β} (hr : r.Placed) (hf : ∀ a, (f a).Placed) :
    Placed (r >>= f) := by
  intro x hx
  rcases bind_eq_error.mp hx with h | ⟨a, -, h⟩
  · exact hr x h
  · exact hf a x h

theorem map {r : TagResult α} (hr : r.Placed) (f : α → β) : Placed (r.map f) :=
  fun x hx => hr x (map_eq_error.mp hx)

end TagResult.Placed

open TagResult (Placed)

theorem placed_readTagExpr (all tokens : List Token) : Placed (readTagExpr all tokens) := by
  unfold readTagExpr
  split
  · exact .ok _
  · exact .issue _

theorem placed_wholeExpression (tokens : List Token) : Placed (wholeExpression tokens) := by
  unfold wholeExpression
  split
  · exact .issue _
  apply Placed.bind (placed_readTagExpr _ _)
  rintro ⟨⟨e, rest⟩, hrest⟩
  dsimp only
  split
  · exact .ok _
  · exact .issue _

theorem placed_assignment (directive : String) (tokens : List Token) :
    Placed (assignment directive tokens) := by
  unfold assignment
  split
  · split
    · apply Placed.bind (placed_readTagExpr _ _)
      rintro ⟨⟨e, rest⟩, hrest⟩
      dsimp only
      split
      · exact .ok _
      · exact .issue _
    · exact .issue _
  · exact .issue _

theorem placed_readAttributes (all : List Token) (given : List (IncludeAttribute × Expr))
    (tokens : List Token) : Placed (readAttributes all given tokens) := by
  fun_induction readAttributes all given tokens with
  | case1 => exact .ok _
  | case2 => exact .ok _
  | case3 => exact .issue _
  | case4 => exact .issue _
  | case5 => exact .issue _
  | case6 given name hname sign value hform a ha hgiven e rest hrest hread ih => exact ih
  | case7 given name hname sign value hform a ha hgiven e hread =>
    intro x hx
    cases hx
    exact placed_readTagExpr all value x hread
  | case8 => exact .issue _

/-! ## Inclusions -/

/-- What goes wrong with an inclusion without a place goes wrong with its attributes, once its target
and they have been read. -/
theorem inclusionOf_failure {tokens : List Token} {x : Failure}
    (h : inclusionOf tokens = .error (.inr x)) :
    ∃ r given e, readTagExpr tokens tokens = .ok r ∧ readAttributes tokens [] r.1.2 = .ok given ∧
      Inclusion.fold r.1.1 (given.lookup .encoding) (given.lookup .parse)
        (given.lookup .ignoreMissing) = .error e ∧ ofFoldError e = .inr x := by
  unfold inclusionOf at h
  split at h
  · cases h
  rcases bind_eq_error.mp h with h | ⟨r, hr, h⟩
  · exact absurd h (placed_readTagExpr _ _ x)
  rcases bind_eq_error.mp h with h | ⟨given, hgiven, h⟩
  · exact absurd h (placed_readAttributes _ _ _ x)
  cases hfold : Inclusion.fold r.1.1 (given.lookup .encoding) (given.lookup .parse)
      (given.lookup .ignoreMissing) with
  | ok i => rw [hfold] at h; cases h
  | error e =>
    rw [hfold] at h
    exact ⟨r, given, e, hr, hgiven, hfold, Except.error.inj h⟩

theorem ofFoldError_failure {e : FoldError} {x : Failure} (h : ofFoldError e = .inr x) :
    x.OfFolding := by
  cases e with
  | refused fault e => cases h
  | failed e cause => cases cause <;> cases h <;> constructor

/-! ## Whole sources -/

/-- The piece is the tag of an inclusion, which goes wrong without a place. -/
def Piece.Unfoldable (p : Piece) (x : Failure) : Prop :=
  ∃ tokens selfClosing, p.kind = .directive "include" tokens selfClosing ∧
    inclusionOf tokens = .error (.inr x)

section

variable {x : Failure}

/-- Only the tag of an inclusion goes wrong without a place. -/
theorem part_failure {p : Piece}
    (h : p.part = .leaf (.error (.inr x)) ∨ p.part = .opening (.error (.inr x))) :
    p.Unfoldable x := by
  obtain ⟨kind, place⟩ := p
  cases kind with
  | text | endTag => rcases h with h | h <;> cases h
  | interpolation tokens =>
    rcases h with h | h
    · exact absurd (Part.leaf.inj h) ((placed_wholeExpression tokens).map _ x)
    · cases h
  | directive name tokens selfClosing =>
    simp only [Piece.part, directivePart] at h
    split at h
    -- one case for each directive, and a last one for unknown names
    · rcases h with h | h
      · exact ⟨tokens, selfClosing, rfl, map_eq_error.mp (Part.leaf.inj h)⟩
      · cases h
    · rcases h with h | h
      · cases h
      · have hcondition := Part.opening.inj h
        split at hcondition
        · cases hcondition
        · exact absurd hcondition (placed_wholeExpression tokens x)
    · rcases h with h | h
      · exact absurd (Part.leaf.inj h) ((placed_assignment _ tokens).map _ x)
      · cases h
    · rcases h with h | h
      · exact absurd (Part.leaf.inj h) ((placed_assignment _ tokens).map _ x)
      · cases h
    · rcases h with h | h <;> cases h
    · rcases h with h | h <;> cases h

/-- A failure that is put at a place is one that needs no place. -/
theorem atPlace_eq_inr {α : Type} {place : Place} {e : ParseIssue ⊕ Failure}
    (h : (.error (atPlace place e) : Except Located α) = .error (.inr x)) : e = .inr x := by
  cases e with
  | inl issue => cases h
  | inr failure => cases h; rfl

/-- **A failure without a place is that of the attributes of an inclusion.** -/
theorem build_failure {stack : List OpenConditional} {done : List Element} {ps : List Piece}
    (h : build stack done ps = .error (.inr x)) : ∃ p ∈ ps, p.Unfoldable x := by
  have hnext : ∀ {p : Piece} {ps : List Piece}, (∃ q ∈ ps, q.Unfoldable x) →
      ∃ q ∈ p :: ps, q.Unfoldable x :=
    fun ⟨q, hq, hx⟩ => ⟨q, List.mem_cons_of_mem _ hq, hx⟩
  fun_induction build stack done ps with
  | case1 => cases h
  | case2 => cases h
  | case3 stack done p ps e hp ih => exact hnext (ih h)
  | case4 stack done p ps e hp =>
    exact ⟨p, List.mem_cons_self, part_failure (.inl (by rw [hp, atPlace_eq_inr h]))⟩
  | case5 stack done p ps c hp ih => exact hnext (ih h)
  | case6 stack done p ps e hp =>
    exact ⟨p, List.mem_cons_self, part_failure (.inr (by rw [hp, atPlace_eq_inr h]))⟩
  | case7 => cases h
  | case8 done p ps hasParameters hp place c before outer hnone ih => exact hnext (ih h)
  | case9 => cases h
  | case10 done p ps f outer hp ih => exact hnext (ih h)
  | case11 => cases h
  | case12 => cases h

/-- Parsing ends at the piece: with an issue at its place, or because it goes wrong without one. -/
def Piece.Ends (p : Piece) (r : Except Located (List Element)) : Prop :=
  (∃ issue, r = .error (.inl (issue, p.place))) ∨ ∃ x, p.Unfoldable x ∧ r = .error (.inr x)

theorem ends_atPlace {p : Piece} {e : ParseIssue ⊕ Failure}
    (h : p.part = .leaf (.error e) ∨ p.part = .opening (.error e)) :
    p.Ends (.error (atPlace p.place e)) := by
  cases e with
  | inl issue => exact .inl ⟨issue, rfl⟩
  | inr x => exact .inr ⟨x, part_failure h, rfl⟩

/-- **Parsing ends at a tag with an issue**, if not at a piece in front of it. -/
theorem build_rejected {p : Piece} {issue : ParseIssue} (hp : p.part = .leaf (.error (.inl issue)))
    (before after : List Piece) (stack : List OpenConditional) (done : List Element) :
    build stack done (before ++ p :: after) = .error (.inl (issue, p.place)) ∨
      ∃ q ∈ before, q.Ends (build stack done (before ++ p :: after)) := by
  induction before generalizing stack done with
  | nil =>
    rw [List.nil_append, build, hp]
    exact .inl rfl
  | cons q before ih =>
    -- where the first piece is read the pieces behind it decide, and else parsing ends at it
    have hnext : ∀ stack done, build stack done (before ++ p :: after) =
        .error (.inl (issue, p.place)) ∨
          ∃ r ∈ q :: before, r.Ends (build stack done (before ++ p :: after)) := by
      intro stack done
      rcases ih stack done with h | ⟨r, hr, h⟩
      · exact .inl h
      · exact .inr ⟨r, List.mem_cons_of_mem _ hr, h⟩
    rw [List.cons_append, build]
    split
    · exact hnext _ _
    · next e hq => exact .inr ⟨q, List.mem_cons_self, ends_atPlace (.inl hq)⟩
    · exact hnext _ _
    · next e hq => exact .inr ⟨q, List.mem_cons_self, ends_atPlace (.inr hq)⟩
    · split
      · split
        · exact .inr ⟨q, List.mem_cons_self, .inl ⟨_, rfl⟩⟩
        · exact hnext _ _
      · exact .inr ⟨q, List.mem_cons_self, .inl ⟨_, rfl⟩⟩
    · split
      · split
        · exact hnext _ _
        · exact .inr ⟨q, List.mem_cons_self, .inl ⟨_, rfl⟩⟩
      · exact .inr ⟨q, List.mem_cons_self, .inl ⟨_, rfl⟩⟩

/-- Parsing fails with an issue of the source, or because a literal attribute cannot be folded. -/
theorem parseTemplate_error {source name : String} (h : parseTemplate source name = .error x) :
    (∃ e, x = .parse e) ∨ x.OfFolding := by
  unfold parseTemplate at h
  split at h
  · exact .inl ⟨_, (Except.error.inj h).symm⟩
  split at h
  · cases h
  · exact .inl ⟨_, (Except.error.inj h).symm⟩
  · next failure hbuild =>
    cases h
    obtain ⟨-, -, tokens, -, -, hinclusion⟩ := build_failure hbuild
    obtain ⟨-, -, e, -, -, -, he⟩ := inclusionOf_failure hinclusion
    exact .inr (ofFoldError_failure he)

end

end Stencil

import Stencil.Proofs.Expr.Literal
import Stencil.Proofs.Expr.Rules
import Stencil.Proofs.Template.Partition
import Stencil.Proofs.Template.Refusal
import Stencil.Proofs.Template.WellFormed

/-!
# Where parsing fails

Parsing ends with elements, or with an issue at a place of the source where a marker begins: cutting
fails at the piece that it has come to, which is no text, and reading fails at a tag that it has come to
or at the opening tag of a conditional that is never closed. Nothing else happens but for a literal
attribute of an inclusion that has no value. The tokens of a tag end with the one that marks their end,
which no expression takes, so that what stands behind an expression is always a token of the tag.

## Main definitions

* `MarksFrom` and `MarkedAt` say that a marker begins at a place.
* `Piece.HasLiteral` is the tag of an inclusion with a literal attribute.
* `Parsed` lists what parsing a source can end in.

## Main results

* `pieces_error` and `Sliced.marked`: cutting fails, and tags begin, where a marker does.
* `build_issue`: reading fails at a tag.
* `Piece.Unfoldable.hasLiteral`: a failure without a place is that of a literal attribute.
* `Expr.readAt_within`: an expression in a tag is followed by a token of the tag.
* `parse_total_located`: parsing is total, with located errors.
-/

namespace Stencil

/-! ## Markers and places -/

/-- Behind some characters a marker begins, at the place where a cursor comes to that steps over them
from `k` on. -/
def MarksFrom (k : Cursor) (s : List Char) (place : Place) : Prop :=
  ∃ before rest, s = before ++ rest ∧ (markerAt rest).isSome ∧ place = (k.across before).place

/-- At an offset of the text that has this location, a marker begins. -/
def MarkedAt (text : List Char) (place : Place) : Prop :=
  ∃ p m, Marker.opening m <+: text.drop p ∧ place = location text p

theorem MarksFrom.front {k : Cursor} {s : List Char} (h : (markerAt s).isSome) :
    MarksFrom k s k.place :=
  ⟨[], s, rfl, h, rfl⟩

theorem MarksFrom.behind {k : Cursor} {source rest : List Char} {place : Place}
    (h : MarksFrom (k.across source) rest place) : MarksFrom k (source ++ rest) place := by
  obtain ⟨before, rest, rfl, hmarker, rfl⟩ := h
  refine ⟨source ++ before, rest, (List.append_assoc _ _ _).symm, hmarker, ?_⟩
  rw [Cursor.across_append]

theorem MarksFrom.markedAt {text : List Char} {place : Place} (h : MarksFrom .start text place) :
    MarkedAt text place := by
  obtain ⟨before, rest, rfl, hmarker, rfl⟩ := h
  obtain ⟨m, hm⟩ := Option.isSome_iff_exists.mp hmarker
  refine ⟨before.length, m, ?_, ?_⟩
  · rw [List.drop_left]
    exact prefix_of_markerAt hm
  · rw [location, List.take_left, Cursor.place_start_across]

/-! ## Cutting -/

/-- Text is always cut off. -/
theorem isSome_markerAt_of_cut_error {k : Nat} {s : List Char} {issue : ParseIssue}
    (h : cut k s = .error issue) : (markerAt s).isSome := by
  cases hm : markerAt s with
  | none => rw [cut, hm] at h; cases h
  | some m => rfl

/-- **Cutting fails where a marker begins.** -/
theorem pieces_error {k : Cursor} {s : List Char} {issue : ParseIssue} {place : Place}
    (h : pieces k s = .error (issue, place)) : MarksFrom k s place := by
  fun_induction pieces k s with
  | case1 => cases h
  | case2 k c cs e hcut =>
    cases h
    exact .front (isSome_markerAt_of_cut_error hcut)
  | case3 k c cs content n hcut e hrest ih =>
    cases h
    have hsplit : c :: cs = (c :: cs.take (n - 1)) ++ cs.drop (n - 1) := by
      rw [List.cons_append, List.take_append_drop]
    rw [hsplit]
    exact (ih hrest).behind
  | case4 => cases h

/-- What is cut off where a marker begins is no text. -/
theorem isSome_markerAt_of_cut {k n : Nat} {s : List Char} {kind : PieceKind}
    (h : cut k s = .ok (some kind, n)) (hkind : ∀ t, kind ≠ .text t) : (markerAt s).isSome := by
  cases hm : markerAt s with
  | none =>
    rw [cut, hm] at h
    cases h
    exact absurd rfl (hkind _)
  | some m => rfl

theorem kind_ne_text {p : Piece} (h : p.isText = false) (t : String) : p.kind ≠ .text t := by
  intro hkind
  rw [Piece.isText, hkind] at h
  cases h

/-- **Tags begin where a marker does.** -/
theorem Sliced.marked {k : Cursor} {s : List Char} {slices : List Slice} (h : Sliced k s slices) :
    ∀ p ∈ slices.filterMap Slice.piece?, p.isText = false → MarksFrom k s p.place := by
  induction h with
  | nil => exact List.forall_mem_nil _
  | @cons k source rest content slices hne hcut _ ih =>
    intro p hp htext
    rw [List.filterMap_cons] at hp
    cases content with
    | none => exact (ih p hp htext).behind
    | some kind =>
      rcases List.mem_cons.mp hp with rfl | hp
      · exact .front (isSome_markerAt_of_cut hcut (kind_ne_text htext))
      · exact (ih p hp htext).behind

/-! ## Building -/

/-- A piece that is not read as an element is no text. -/
theorem isText_eq_false {p : Piece} (h : ∀ e, p.part ≠ .leaf (.ok e)) : p.isText = false := by
  obtain ⟨kind, place⟩ := p
  cases kind with
  | text s => exact absurd rfl (h (.text place s))
  | _ => rfl

theorem atPlace_eq_inl {α : Type} {place place' : Place} {e : ParseIssue ⊕ Failure}
    {issue : ParseIssue}
    (h : (.error (atPlace place e) : Except Located α) = .error (.inl (issue, place'))) :
    place = place' := by
  cases e with
  | inl issue => cases h; rfl
  | inr failure => cases h

/-- The place is that of a tag among the pieces, or of a conditional that is open. -/
def TagAt (stack : List OpenConditional) (ps : List Piece) (place : Place) : Prop :=
  (∃ p ∈ ps, p.isText = false ∧ p.place = place) ∨ ∃ f ∈ stack, f.place = place

theorem TagAt.first {stack : List OpenConditional} {p : Piece} {ps : List Piece} {place : Place}
    (hp : ∀ e, p.part ≠ .leaf (.ok e)) (h : p.place = place) : TagAt stack (p :: ps) place :=
  .inl ⟨p, List.mem_cons_self, isText_eq_false hp, h⟩

/-- A tag behind the first piece, where the open conditionals are those in front of it, or the first
piece opens one. -/
theorem TagAt.next {stack stack' : List OpenConditional} {p : Piece} {ps : List Piece}
    {place : Place} (h : TagAt stack' ps place)
    (hstack : ∀ f ∈ stack', (∃ g ∈ stack, g.place = f.place) ∨
      (∀ e, p.part ≠ .leaf (.ok e)) ∧ p.place = f.place) : TagAt stack (p :: ps) place := by
  rcases h with ⟨q, hq, htext, hplace⟩ | ⟨f, hf, rfl⟩
  · exact .inl ⟨q, List.mem_cons_of_mem _ hq, htext, hplace⟩
  · rcases hstack f hf with hold | ⟨hp, hplace⟩
    · exact .inr hold
    · exact .first hp hplace

/-- **Reading fails at a tag**, or at the opening tag of a conditional that is open. -/
theorem build_issue {stack : List OpenConditional} {done : List Element} {ps : List Piece}
    {issue : ParseIssue} {place : Place} (h : build stack done ps = .error (.inl (issue, place))) :
    TagAt stack ps place := by
  have hsame : ∀ {stack : List OpenConditional} {p : Piece}, ∀ f ∈ stack,
      (∃ g ∈ stack, g.place = f.place) ∨ (∀ e, p.part ≠ .leaf (.ok e)) ∧ p.place = f.place :=
    fun f hf => .inl ⟨f, hf, rfl⟩
  fun_induction build stack done ps with
  | case1 => cases h
  | case2 f outer done =>
    cases h
    exact .inr ⟨f, List.mem_cons_self, rfl⟩
  | case3 stack done p ps e hp ih => exact (ih h).next hsame
  | case4 stack done p ps e hp => exact .first (by simp [hp]) (atPlace_eq_inl h)
  | case5 stack done p ps c hp ih =>
    refine (ih h).next (List.forall_mem_cons.mpr ⟨.inr ⟨by simp [hp], rfl⟩, hsame⟩)
  | case6 stack done p ps e hp => exact .first (by simp [hp]) (atPlace_eq_inl h)
  | case7 done p ps place c before outer hp =>
    cases h
    exact .first (by simp [hp]) rfl
  | case8 done p ps hasParameters hp place c before outer hnone ih =>
    refine (ih h).next (List.forall_mem_cons.mpr ⟨.inl ⟨_, List.mem_cons_self, rfl⟩, ?_⟩)
    exact fun f hf => .inl ⟨f, List.mem_cons_of_mem _ hf, rfl⟩
  | case9 stack done p ps hasParameters hp =>
    cases h
    exact .first (by simp [hp]) rfl
  | case10 done p ps f outer hp ih =>
    exact (ih h).next fun g hg => .inl ⟨g, List.mem_cons_of_mem _ hg, rfl⟩
  | case11 done p ps name hp =>
    cases h
    exact .first (by simp [hp]) rfl
  | case12 done p ps name hp =>
    cases h
    exact .first (by simp [hp]) rfl

/-! ## Literal attributes -/

/-- A written attribute is folded in vain if it is a literal without a value. -/
theorem Attr.fold_failed {α : Type} {fallback : α}
    {check : Expr → Model → Except AttributeFault α} {written : Option Expr} {e : Expr}
    {cause : EvalError} (h : fold fallback check written = .error (.failed e cause)) :
    written = some e ∧ e.isLiteral = true ∧ e.eval none = .error cause := by
  unfold fold at h
  split at h
  · cases h
  · split at h
    · next hliteral =>
      split at h
      · next heval =>
        cases h
        exact ⟨rfl, hliteral, heval⟩
      · split at h <;> cases h
    · cases h

theorem Inclusion.fold_failed {target : Expr} {given : List (IncludeAttribute × Expr)} {e : Expr}
    {cause : EvalError}
    (h : fold target (given.lookup .encoding) (given.lookup .parse)
      (given.lookup .ignoreMissing) = .error (.failed e cause)) :
    ∃ a, given.lookup a = some e ∧ e.isLiteral = true ∧ e.eval none = .error cause := by
  unfold fold at h
  rcases bind_eq_error.mp h with h | ⟨encoding, -, h⟩
  · exact ⟨_, Attr.fold_failed h⟩
  rcases bind_eq_error.mp h with h | ⟨parse, -, h⟩
  · exact ⟨_, Attr.fold_failed h⟩
  rcases bind_eq_error.mp h with h | ⟨ignoreMissing, -, h⟩
  · exact ⟨_, Attr.fold_failed h⟩
  · cases h

/-- The piece is the tag of an inclusion, and one of its attributes is this literal expression. -/
def Piece.HasLiteral (p : Piece) (e : Expr) : Prop :=
  ∃ us vs stop selfClosing target given a,
    p.kind = .directive "include" (us ++ vs ++ [Token.endAt stop]) selfClosing ∧
      Derives .disjunction us target ∧ Attributes [] vs given ∧ (a, e) ∈ given ∧
      e.isLiteral = true

/-- **A failure without a place is that of a literal attribute**: it has an error for its value, or a
sum in it is beyond the largest decimal. -/
theorem Piece.Unfoldable.hasLiteral {p : Piece} {x : Failure} (hp : p.kind.Genuine)
    (h : p.Unfoldable x) : ∃ e, p.HasLiteral e ∧
      ((∃ cause, e.eval none = .error (.value cause) ∧ x = .defect (.literal e.canonical cause)) ∨
        e.eval none = .error (.arithmetic .decimalOverflow) ∧ x = .arithmetic .decimalOverflow) := by
  obtain ⟨tokens, selfClosing, hkind, hinclusion⟩ := h
  rw [hkind] at hp
  obtain ⟨ts, stop, rfl, hts⟩ := hp
  obtain ⟨⟨⟨target, rest⟩, hrest⟩, given, fault, hread, hattributes, hfold, hfault⟩ :=
    inclusionOf_failure hinclusion
  -- the target ends where the attributes begin
  obtain ⟨us, vs, rfl, rfl, hder⟩ := derives_of_read_before_end rfl (readTagExpr_eq_ok.mp hread)
  have hvs : ∀ t ∈ vs, t.Genuine := fun t ht => hts t (List.mem_append_right _ ht)
  have hlisted := attributes_of_readAttributes (kind_ne_eof_of_genuine hvs) hattributes
  cases fault with
  | refused fault e => cases hfault
  | failed e cause =>
    obtain ⟨a, hlookup, hliteral, heval⟩ := Inclusion.fold_failed hfold
    obtain ⟨before, after, rfl, -⟩ := List.lookup_eq_some_iff.mp hlookup
    have hmem : (a, e) ∈ before ++ (a, e) :: after := by simp
    have hwf : e.WellFormed := hlisted.wellFormed hvs (List.forall_mem_nil _) _ hmem
    refine ⟨e, ⟨us, vs, stop, selfClosing, target, _, a, hkind, hder, hlisted, hmem, hliteral⟩, ?_⟩
    rcases Expr.eval_error_of_isLiteral hliteral hwf heval with ⟨cause, rfl⟩ | rfl
    · cases hfault
      exact .inl ⟨cause, heval, rfl⟩
    · cases hfault
      exact .inr ⟨heval, rfl⟩

/-! ## Indices of tokens -/

/-- **An expression in a tag is followed by a token of the tag**, at the latest by the one that marks
the end. -/
theorem Expr.readAt_within {ts : List Token} {stop p q : Nat} {e : Expr}
    (h : readAt (ts ++ [Token.endAt stop]) p = .ok (e, q)) :
    p < q ∧ q < (ts ++ [Token.endAt stop]).length := by
  obtain ⟨hlt, hle, -⟩ := readAt_derives h
  obtain ⟨rest, hread, rfl⟩ := readAt_eq_ok_iff.mp h
  have hp : p ≤ ts.length := by
    rw [List.length_append, List.length_singleton] at hlt hle
    omega
  rw [List.drop_append_of_le_length hp] at hread
  obtain ⟨us, vs, -, rfl, -⟩ := derives_of_read_before_end rfl hread
  refine ⟨hlt, ?_⟩
  simp only [List.length_append, List.length_singleton]
  omega

/-! ## Parsing -/

/-- What parsing a source can end in, under the name of its template. -/
inductive Parsed (source name : String) : Except Failure (List Element) → Prop
  | elements {root : List Element} : Parsed source name (.ok root)
  /-- An issue where a marker begins. -/
  | issue {issue : ParseIssue} {place : Place} (h : MarkedAt source.toList place) :
      Parsed source name (.error (.parse ⟨issue, place, name⟩))
  /-- A literal attribute with an error for its value. -/
  | literal {ps : List Piece} {stop : Cursor} {p : Piece} {e : Expr} {cause : ValueError}
      (hps : piecesOf source = .ok (ps, stop)) (hp : p ∈ ps) (he : p.HasLiteral e)
      (h : e.eval none = .error (.value cause)) :
      Parsed source name (.error (.defect (.literal e.canonical cause)))
  /-- A literal attribute with a sum beyond the largest decimal. -/
  | overflow {ps : List Piece} {stop : Cursor} {p : Piece} {e : Expr}
      (hps : piecesOf source = .ok (ps, stop)) (hp : p ∈ ps) (he : p.HasLiteral e)
      (h : e.eval none = .error (.arithmetic .decimalOverflow)) :
      Parsed source name (.error (.arithmetic .decimalOverflow))

theorem parsed (source name : String) : Parsed source name (parseTemplate source name) := by
  unfold parseTemplate
  split
  · next issue place hpieces => exact .issue (pieces_error hpieces).markedAt
  next ps stop hpieces =>
  obtain ⟨slices, hslices, rfl⟩ := sliced_of_pieces hpieces
  split
  · exact .elements
  · next issue place hbuild =>
    rcases build_issue hbuild with ⟨p, hp, htext, rfl⟩ | ⟨f, hf, -⟩
    · exact .issue (hslices.marked p hp htext).markedAt
    · cases hf
  · next failure hbuild =>
    obtain ⟨p, hp, hfailure⟩ := build_failure hbuild
    rcases hfailure.hasLiteral (hslices.genuine p hp) with ⟨e, he, ⟨cause, h, rfl⟩ | ⟨h, rfl⟩⟩
    · exact .literal hpieces hp he h
    · exact .overflow hpieces hp he h

theorem MarkedAt.line_ne_zero {text : List Char} {place : Place} (h : MarkedAt text place) :
    place.line ≠ 0 := by
  obtain ⟨p, m, -, rfl⟩ := h
  have hline : (location text p).line = 1 + (text.take p).count '\n' := rfl
  omega

/-- **Parsing is total, with located errors.** It ends with elements, or with an issue that names the
template and a line and column where a marker begins, or because a literal attribute of an inclusion
has no value: its evaluation fails with an error of the author's, or in a sum that is too large. No
issue is without a line. The tokens of a tag are never none, and an expression that is read from any
index of them is followed by another one of them. -/
theorem parse_total_located (source name : String) :
    Parsed source name (parseTemplate source name) ∧
      (∀ e, parseTemplate source name = .error (.parse e) → e.place.line ≠ 0) ∧
      ∀ ps stop, piecesOf source = .ok (ps, stop) → ∀ p ∈ ps, ∀ tokens,
        (p.kind = .interpolation tokens ∨
          ∃ directive selfClosing, p.kind = .directive directive tokens selfClosing) →
        tokens ≠ [] ∧ ∀ i e next, Expr.readAt tokens i = .ok (e, next) →
          i < next ∧ next < tokens.length := by
  have hparsed := parsed source name
  refine ⟨hparsed, fun e he => ?_, fun ps stop hpieces p hp tokens htokens => ?_⟩
  · rw [he] at hparsed
    cases hparsed with
    | issue h => exact h.line_ne_zero
  · obtain ⟨slices, hslices, rfl⟩ := sliced_of_pieces hpieces
    have hgenuine := hslices.genuine p hp
    obtain ⟨ts, k, rfl⟩ : ∃ ts k, tokens = ts ++ [Token.endAt k] := by
      rcases htokens with hkind | ⟨directive, selfClosing, hkind⟩
      · rw [hkind] at hgenuine
        obtain ⟨ts, k, htokens, -⟩ := hgenuine
        exact ⟨ts, k, htokens⟩
      · rw [hkind] at hgenuine
        obtain ⟨ts, k, htokens, -⟩ := hgenuine
        exact ⟨ts, k, htokens⟩
    exact ⟨List.append_ne_nil_of_right_ne_nil _ (List.cons_ne_nil _ _),
      fun i e next => Expr.readAt_within⟩

/-- An interpolation in front of an end tag that ends nothing. -/
def straySource : String := "$\x7b'a'\x7d</#if>"

/-- The issue is found at the end tag, and the literal in front of it is followed by the end of its
tokens. -/
theorem parse_located_stray :
    ∃ stop, piecesOf straySource = .ok ([⟨.interpolation [⟨.string, "'a'", 2⟩, Token.endAt stop],
        ⟨1, 1⟩⟩, ⟨.endTag "if", ⟨1, 7⟩⟩], ⟨12, ⟨1, 13⟩⟩) ∧
      parseTemplate straySource "main" = .error (.parse ⟨.strayEndTag "if", ⟨1, 7⟩, "main"⟩) ∧
      MarkedAt straySource.toList ⟨1, 7⟩ ∧
      Expr.readAt [⟨.string, "'a'", 2⟩, Token.endAt stop] 0 = .ok (.str "a", 1) ∧ 0 < 1 ∧ 1 < 2 := by
  have hliteral : Lexes .string ['\'', 'a', '\''] ('\x7d' :: "</#if>".toList) :=
    ⟨'\'', ['a', '\''], rfl, rfl⟩
  obtain ⟨stop, hinterpolation⟩ :=
    cut_interpolation (Scans.inner terminators_brace hliteral (Inner.head (by decide) _))
  have hendTag : ∀ k, cut k ("</#if>".toList ++ []) =
      .ok (some (.endTag "if"), "</#if>".toList.length) := fun k => rfl
  have hsliced : Sliced .start straySource.toList _ :=
    .cons (List.cons_ne_nil _ _) hinterpolation (.cons (by decide) (hendTag _) (.nil _))
  have hpieces : piecesOf straySource = .ok ([⟨.interpolation [⟨.string, "'a'", 2⟩,
      Token.endAt stop], ⟨1, 1⟩⟩, ⟨.endTag "if", ⟨1, 7⟩⟩], ⟨12, ⟨1, 13⟩⟩) :=
    pieces_of_sliced hsliced
  have hread : Expr.readAt [⟨.string, "'a'", 2⟩, Token.endAt stop] 0 = .ok (.str "a", 1) := rfl
  have hparse : parseTemplate straySource "main" =
      .error (.parse ⟨.strayEndTag "if", ⟨1, 7⟩, "main"⟩) := by
    rw [parseTemplate, hpieces]
    rfl
  obtain ⟨hparsed, -, hindices⟩ := parse_total_located straySource "main"
  rw [hparse] at hparsed
  obtain ⟨-, hwithin⟩ := hindices _ _ hpieces _ List.mem_cons_self _ (.inl rfl)
  cases hparsed with
  | issue hmarked => exact ⟨stop, hpieces, hparse, hmarked, hread, hwithin 0 _ 1 hread⟩

end Stencil

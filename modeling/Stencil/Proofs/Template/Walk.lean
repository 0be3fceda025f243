import Mathlib.Data.List.Forall2
import Stencil.Proofs.Template.RoundTrip

/-!
# Elements and the pieces they stand for

A template is a block: a run of elements by themselves and of conditionals, each of them an opening
tag, a block, perhaps a dividing tag and another block, and a closing tag. The walk through elements
in this order lists what the pieces of their source write, the elements by themselves and the tags of
the conditionals. A list of pieces is parsed exactly when it is a block, and to exactly the elements
whose walk it writes, piece by piece.

## Main definitions

* `Item` is what one piece writes, `Element.itemsAll` the walk through elements.
* `Piece.Writes` says what a piece writes, by the grammar of its tokens.
* `Block` is the grammar of blocks.

## Main results

* `Inclusion.fold_eq_ok_iff`: literal attributes of acceptable shape are those that can be folded.
* `forms_iff_writes`: a block of elements writes the walk through them.
* `parses_exactly_blocks`: a template is parsed exactly when its pieces are a block.
-/

namespace Stencil

/-! ## Walking through elements -/

/-- What one piece of a source writes. -/
inductive Item
  /-- An element by itself. -/
  | element (e : Element)
  /-- The beginning of a conditional. -/
  | opening (place : Place) (condition : Expr)
  /-- The beginning of the second branch. -/
  | divider
  /-- The end of a conditional. -/
  | closing

namespace Element

mutual

/-- The walk through an element: a conditional comes before its branches, with the tags that stand
between them and behind them. -/
def items : Element → List Item
  | conditional p c body none => .opening p c :: (itemsAll body ++ [.closing])
  | conditional p c body (some otherwise) =>
    .opening p c :: (itemsAll body ++ .divider :: (itemsAll otherwise ++ [.closing]))
  | e => [.element e]

/-- The walk through a list of elements. -/
def itemsAll : List Element → List Item
  | [] => []
  | e :: es => items e ++ itemsAll es

end

end Element

/-! ## What pieces write -/

/-- What a folded encoding is: a string. -/
def EncodingShape (m : Model) (encoding : Option String) : Prop :=
  ∃ s, m.text = some s ∧ encoding = some s

/-- What a folded `parse` is: a yes-and-no word, or a boolean. -/
def ParseShape (m : Model) (parse : Bool) : Prop :=
  (∃ s, m.text = some s ∧ Flag.ofWord? s = some parse) ∨ (m.text = none ∧ m.flag = some parse)

/-- What a folded `ignore_missing` is: a boolean. -/
def IgnoreMissingShape (m : Model) (ignoreMissing : Bool) : Prop :=
  m.flag = some ignoreMissing

/-- The attribute that a tag gives: the default if it is not written, the value of an acceptable
shape if it is written as a literal, and otherwise the expression. -/
inductive Attr.Given {α : Type} (fallback : α) (shape : Model → α → Prop) :
    Option Expr → Attr α → Prop
  | unwritten : Given fallback shape none (.default fallback)
  | literal {e : Expr} {m : Model} {v : α} (hliteral : e.isLiteral = true)
      (hvalue : e.eval none = .ok m) (hshape : shape m v) :
      Given fallback shape (some e) (.folded v e)
  | deferred {e : Expr} (hliteral : e.isLiteral = false) :
      Given fallback shape (some e) (.deferred e)

/-- The inclusion that a tag gives whose target and attributes are these expressions. -/
structure Inclusion.Given (target : Expr) (given : List (IncludeAttribute × Expr))
    (i : Inclusion) : Prop where
  target : i.target = target
  encoding : i.encoding.Given none EncodingShape (given.lookup .encoding)
  parse : i.parse.Given true ParseShape (given.lookup .parse)
  ignoreMissing : i.ignoreMissing.Given false IgnoreMissingShape (given.lookup .ignoreMissing)

/-- What a piece writes, by the grammar of its tokens, at the place of the piece. -/
inductive Piece.Writes : Piece → Item → Prop
  | text {place : Place} {content : String} :
      Writes ⟨.text content, place⟩ (.element (.text place content))
  | interpolation {place : Place} {ts : List Token} {stop : Nat} {value : Expr}
      (hvalue : Derives .disjunction ts value) :
      Writes ⟨.interpolation (ts ++ [Token.endAt stop]), place⟩
        (.element (.interpolation place value))
  | assign {place : Place} {scope : AssignScope} {name sign : Token} {ts : List Token} {stop : Nat}
      {selfClosing : Bool} {value : Expr} (hname : name.kind = .identifier)
      (hsign : sign.isOperator "=" = true) (hvalue : Derives .disjunction ts value) :
      Writes ⟨.directive scope.directive (name :: sign :: ts ++ [Token.endAt stop]) selfClosing, place⟩
        (.element (.assign place scope name.text value))
  | inclusion {place : Place} {us vs : List Token} {stop : Nat} {selfClosing : Bool}
      {target : Expr} {given : List (IncludeAttribute × Expr)} {i : Inclusion}
      (htarget : Derives .disjunction us target) (hattributes : Attributes [] vs given)
      (hgiven : i.Given target given) :
      Writes ⟨.directive "include" (us ++ vs ++ [Token.endAt stop]) selfClosing, place⟩
        (.element (.inclusion place i))
  | opening {place : Place} {ts : List Token} {stop : Nat} {condition : Expr}
      (hcondition : Derives .disjunction ts condition) :
      Writes ⟨.directive "if" (ts ++ [Token.endAt stop]) false, place⟩ (.opening place condition)
  | divider {place : Place} {stop : Nat} {selfClosing : Bool} :
      Writes ⟨.directive "else" [Token.endAt stop] selfClosing, place⟩ .divider
  | closing {place : Place} : Writes ⟨.endTag "if", place⟩ .closing

/-- The grammar of blocks. -/
inductive Block : List Piece → Prop
  | nil : Block []
  | element {p : Piece} {e : Element} {ps : List Piece} (hp : p.Writes (.element e))
      (hps : Block ps) : Block (p :: ps)
  | conditional {p q : Piece} {place : Place} {c : Expr} {qs ps : List Piece}
      (hp : p.Writes (.opening place c)) (hbody : Block qs) (hq : q.Writes .closing)
      (hps : Block ps) : Block (p :: (qs ++ q :: ps))
  | branches {p d q : Piece} {place : Place} {c : Expr} {qs rs ps : List Piece}
      (hp : p.Writes (.opening place c)) (hbody : Block qs) (hd : d.Writes .divider)
      (hotherwise : Block rs) (hq : q.Writes .closing) (hps : Block ps) :
      Block (p :: (qs ++ d :: (rs ++ q :: ps)))

/-! ## Attributes of acceptable shape -/

/-- An attribute is folded to what the tag gives, if its check asks for the shape. -/
theorem Attr.fold_eq_ok_iff {α : Type} {fallback : α} {shape : Model → α → Prop}
    {check : Expr → Model → Except AttributeFault α} {written : Option Expr} {a : Attr α}
    (hcheck : ∀ e m v, check e m = .ok v ↔ shape m v) :
    Attr.fold fallback check written = .ok a ↔ a.Given fallback shape written := by
  constructor
  · intro h
    unfold fold at h
    split at h
    · cases h
      exact .unwritten
    · next e =>
      split at h
      · next hliteral =>
        split at h
        · cases h
        · next m hvalue =>
          split at h
          · next v hv =>
            cases h
            exact .literal hliteral hvalue ((hcheck e m v).mp hv)
          · cases h
      · next hliteral =>
        cases h
        exact .deferred (Bool.eq_false_iff.mpr hliteral)
  · intro h
    cases h with
    | unwritten => rfl
    | @literal e m v hliteral hvalue hshape =>
      simp only [fold, if_pos hliteral, hvalue, (hcheck e m v).mpr hshape]
    | deferred hliteral => simp only [fold, hliteral, Bool.false_eq_true, if_false]

namespace Inclusion

theorem checkEncoding_eq_ok_iff (e : Expr) (m : Model) (v : Option String) :
    checkEncoding e m = .ok v ↔ EncodingShape m v := by
  unfold checkEncoding EncodingShape
  cases m.text with
  | none => simp
  | some s => simp [eq_comm]

theorem checkParse_eq_ok_iff (e : Expr) (m : Model) (v : Bool) :
    checkParse e m = .ok v ↔ ParseShape m v := by
  unfold checkParse parseFlagOf ParseShape
  cases m.text with
  | none => cases m.flag <;> simp
  | some s => cases hword : Flag.ofWord? s <;> simp [hword]

theorem checkIgnoreMissing_eq_ok_iff (e : Expr) (m : Model) (v : Bool) :
    checkIgnoreMissing e m = .ok v ↔ IgnoreMissingShape m v := by
  unfold checkIgnoreMissing IgnoreMissingShape
  cases m.flag <;> simp

/-- **The literal attributes of acceptable shape are those that can be folded.** -/
theorem fold_eq_ok_iff {target : Expr} {given : List (IncludeAttribute × Expr)} {i : Inclusion} :
    fold target (given.lookup .encoding) (given.lookup .parse) (given.lookup .ignoreMissing) =
      .ok i ↔ i.Given target given := by
  unfold fold
  constructor
  · intro h
    obtain ⟨a, ha, h⟩ := bind_eq_ok.mp h
    obtain ⟨b, hb, h⟩ := bind_eq_ok.mp h
    obtain ⟨c, hc, h⟩ := bind_eq_ok.mp h
    cases h
    exact ⟨rfl, (Attr.fold_eq_ok_iff checkEncoding_eq_ok_iff).mp ha,
      (Attr.fold_eq_ok_iff checkParse_eq_ok_iff).mp hb,
      (Attr.fold_eq_ok_iff checkIgnoreMissing_eq_ok_iff).mp hc⟩
  · rintro ⟨rfl, hencoding, hparse, hignoreMissing⟩
    rw [(Attr.fold_eq_ok_iff checkEncoding_eq_ok_iff).mpr hencoding,
      (Attr.fold_eq_ok_iff checkParse_eq_ok_iff).mpr hparse,
      (Attr.fold_eq_ok_iff checkIgnoreMissing_eq_ok_iff).mpr hignoreMissing]
    rfl

end Inclusion

/-! ## What pieces write is the part they play -/

/-- The part that a piece plays which writes the item. -/
def Item.part : Item → Part
  | element e => .leaf (.ok e)
  | opening _ c => .opening (.ok c)
  | divider => .divider false
  | closing => .closing "if"

section

variable {p : Piece}

theorem Piece.Writes.part_eq {item : Item} (h : p.Writes item) : p.part = item.part := by
  cases h with
  | text | divider | closing => rfl
  | interpolation hvalue =>
    simp only [Piece.part, wholeExpression_of_derives hvalue]
    rfl
  | @assign _ scope _ _ _ _ _ _ hname hsign hvalue =>
    cases scope <;>
    · simp only [Piece.part, AssignScope.directive, directivePart,
        assignment_of_derives _ hname hsign hvalue]
      rfl
  | inclusion htarget hattributes hgiven =>
    simp only [Piece.part, directivePart,
      inclusionOf_of_derives htarget hattributes, Inclusion.fold_eq_ok_iff.mpr hgiven]
    rfl
  | opening hcondition =>
    simp only [Piece.part, directivePart, wholeExpression_of_derives hcondition]
    rfl

theorem Piece.Writes.place_eq {place : Place} {c : Expr} (h : p.Writes (.opening place c)) :
    p.place = place := by
  cases h
  rfl

/-- An element by itself is written by its piece. The tokens of the tag stand in front of the end, and
there is no end among them. -/
theorem writes_of_leaf (hp : p.kind.Genuine) {e : Element} (h : p.part = .leaf (.ok e)) :
    p.Writes (.element e) := by
  obtain ⟨kind, place⟩ := p
  rcases leaf_cases h with ⟨s, rfl, rfl⟩ | ⟨tokens, v, rfl, hv, rfl⟩ |
    ⟨scope, tokens, selfClosing, name, v, rfl, hv, rfl⟩ | ⟨tokens, selfClosing, i, rfl, hi, rfl⟩
  · exact .text
  · obtain ⟨ts, stop, rfl, hts⟩ := hp
    exact .interpolation ((wholeExpression_eq_ok_iff (kind_ne_eof_of_genuine hts)).mp hv)
  · obtain ⟨ts, stop, rfl, hts⟩ := hp
    obtain ⟨t, sign, vs, rfl, hname, rfl, hsign, hvalue⟩ :=
      (assignment_eq_ok_iff (kind_ne_eof_of_genuine hts)).mp hv
    exact .assign hname hsign hvalue
  · obtain ⟨ts, stop, rfl, hts⟩ := hp
    obtain ⟨us, vs, target, given, rfl, htarget, hattributes, hfold⟩ :=
      (inclusionOf_eq_ok_iff (kind_ne_eof_of_genuine hts)).mp hi
    exact .inclusion htarget hattributes (Inclusion.fold_eq_ok_iff.mp hfold)

theorem writes_of_opening (hp : p.kind.Genuine) {c : Expr} (h : p.part = .opening (.ok c)) :
    p.Writes (.opening p.place c) := by
  obtain ⟨kind, place⟩ := p
  obtain ⟨tokens, rfl, hc⟩ := opening_cases h
  obtain ⟨ts, stop, rfl, hts⟩ := hp
  exact .opening ((wholeExpression_eq_ok_iff (kind_ne_eof_of_genuine hts)).mp hc)

/-- An `else` that divides a conditional has no parameters. -/
theorem writes_of_divider (hp : p.kind.Genuine) (h : p.part = .divider false) :
    p.Writes .divider := by
  obtain ⟨kind, place⟩ := p
  cases kind with
  | text | interpolation | endTag => cases h
  | directive name tokens selfClosing =>
    simp only [Piece.part, directivePart] at h
    split at h
    · cases h
    · cases h
    · cases h
    · cases h
    · obtain ⟨ts, stop, rfl, -⟩ := hp
      -- the only token is the one that marks the end
      have hlength : ¬(ts ++ [Token.endAt stop]).length > 1 :=
        of_decide_eq_false (Part.divider.inj h)
      rw [List.length_append, List.length_singleton] at hlength
      have hempty : ts = [] := List.eq_nil_of_length_eq_zero (by omega)
      rw [hempty]
      exact .divider
    · cases h

theorem writes_of_closing (h : p.part = .closing "if") : p.Writes .closing := by
  obtain ⟨kind, place⟩ := p
  cases kind with
  | text | interpolation => cases h
  | directive name tokens selfClosing =>
    simp only [Piece.part, directivePart] at h
    split at h <;> cases h
  | endTag name =>
    cases h
    exact .closing

end

/-! ## Blocks and their walks -/

section

variable {ps : List Piece} {es : List Element}

/-- What goes with two lists, one behind the other, is two lists itself. -/
theorem exists_append_of_forall₂ {α β : Type} {R : α → β → Prop} {l : List α} {l₁ l₂ : List β}
    (h : List.Forall₂ R l (l₁ ++ l₂)) :
    ∃ k₁ k₂, l = k₁ ++ k₂ ∧ List.Forall₂ R k₁ l₁ ∧ List.Forall₂ R k₂ l₂ :=
  ⟨l.take l₁.length, l.drop l₁.length, (List.take_append_drop _ _).symm,
    List.forall₂_take_append l l₁ l₂ h, List.forall₂_drop_append l l₁ l₂ h⟩

/-- The pieces of a block write the walk through its elements. -/
theorem Forms.writes (h : Forms ps es) (hps : ∀ p ∈ ps, p.kind.Genuine) :
    List.Forall₂ Piece.Writes ps (Element.itemsAll es) := by
  induction h with
  | nil => exact .nil
  | @leaf p e ps es hp _ ih =>
    rw [List.forall_mem_cons] at hps
    have hitems : e.items = [.element e] := by
      rcases leaf_cases hp with ⟨_, -, rfl⟩ | ⟨_, _, -, -, rfl⟩ | ⟨_, _, _, _, _, -, -, rfl⟩ |
        ⟨_, _, _, -, -, rfl⟩ <;> rfl
    rw [Element.itemsAll, hitems]
    exact .cons (writes_of_leaf hps.1 hp) (ih hps.2)
  | @conditional p q c qs ps body es hp _ hq _ ihbody ih =>
    simp only [List.forall_mem_cons, List.forall_mem_append] at hps
    obtain ⟨hpgenuine, hqs, -, hps⟩ := hps
    have hrest := List.rel_append (ihbody hqs) (List.Forall₂.cons (writes_of_closing hq) (ih hps))
    rw [Element.itemsAll, Element.items, List.cons_append, List.append_assoc]
    exact .cons (writes_of_opening hpgenuine hp) hrest
  | @branches p d q c qs rs ps body otherwise es hp _ hd _ hq _ ihbody ihotherwise ih =>
    simp only [List.forall_mem_cons, List.forall_mem_append] at hps
    obtain ⟨hpgenuine, hqs, hdgenuine, hrs, -, hps⟩ := hps
    have hsecond :=
      List.rel_append (ihotherwise hrs) (List.Forall₂.cons (writes_of_closing hq) (ih hps))
    have hrest :=
      List.rel_append (ihbody hqs) (List.Forall₂.cons (writes_of_divider hdgenuine hd) hsecond)
    rw [Element.itemsAll, Element.items]
    simp only [List.cons_append, List.append_assoc]
    exact .cons (writes_of_opening hpgenuine hp) hrest

mutual

/-- The pieces that write the walk through an element are a block of it alone. -/
theorem forms_of_items {ps : List Piece} (e : Element)
    (h : List.Forall₂ Piece.Writes ps e.items) : Forms ps [e] := by
  match e with
  | .text _ _ | .interpolation _ _ | .assign _ _ _ _ | .inclusion _ _ =>
    obtain ⟨p, _, hp, hnil, rfl⟩ := List.forall₂_cons_right_iff.mp h
    cases hnil
    exact .leaf hp.part_eq .nil
  | .conditional place c body none =>
    rw [Element.items] at h
    obtain ⟨p, _, hp, hrest, rfl⟩ := List.forall₂_cons_right_iff.mp h
    obtain ⟨qs, _, rfl, hbody, hend⟩ := exists_append_of_forall₂ hrest
    obtain ⟨q, _, hq, hnil, rfl⟩ := List.forall₂_cons_right_iff.mp hend
    cases hnil
    cases hp.place_eq
    exact .conditional hp.part_eq (forms_of_itemsAll body hbody) hq.part_eq .nil
  | .conditional place c body (some otherwise) =>
    rw [Element.items] at h
    obtain ⟨p, _, hp, hrest, rfl⟩ := List.forall₂_cons_right_iff.mp h
    obtain ⟨qs, _, rfl, hbody, hsecond⟩ := exists_append_of_forall₂ hrest
    obtain ⟨d, _, hd, hthird, rfl⟩ := List.forall₂_cons_right_iff.mp hsecond
    obtain ⟨rs, _, rfl, hotherwise, hend⟩ := exists_append_of_forall₂ hthird
    obtain ⟨q, _, hq, hnil, rfl⟩ := List.forall₂_cons_right_iff.mp hend
    cases hnil
    cases hp.place_eq
    exact .branches hp.part_eq (forms_of_itemsAll body hbody) hd.part_eq
      (forms_of_itemsAll otherwise hotherwise) hq.part_eq .nil

theorem forms_of_itemsAll {ps : List Piece} (es : List Element)
    (h : List.Forall₂ Piece.Writes ps (Element.itemsAll es)) : Forms ps es := by
  match es with
  | [] =>
    cases h
    exact .nil
  | e :: es =>
    obtain ⟨qs, rs, rfl, hfirst, hrest⟩ := exists_append_of_forall₂ h
    exact (forms_of_items e hfirst).append (forms_of_itemsAll es hrest)

end

/-- **A block of elements writes the walk through them**, and what writes that walk is the block. -/
theorem forms_iff_writes (hps : ∀ p ∈ ps, p.kind.Genuine) :
    Forms ps es ↔ List.Forall₂ Piece.Writes ps (Element.itemsAll es) :=
  ⟨fun h => h.writes hps, forms_of_itemsAll es⟩

theorem Block.forms (h : Block ps) : ∃ es, Forms ps es := by
  induction h with
  | nil => exact ⟨[], .nil⟩
  | element hp _ ih =>
    obtain ⟨es, hes⟩ := ih
    exact ⟨_, .leaf hp.part_eq hes⟩
  | conditional hp _ hq _ ihbody ih =>
    obtain ⟨body, hbody⟩ := ihbody
    obtain ⟨es, hes⟩ := ih
    exact ⟨_, .conditional hp.part_eq hbody hq.part_eq hes⟩
  | branches hp _ hd _ hq _ ihbody ihotherwise ih =>
    obtain ⟨body, hbody⟩ := ihbody
    obtain ⟨otherwise, hotherwise⟩ := ihotherwise
    obtain ⟨es, hes⟩ := ih
    exact ⟨_, .branches hp.part_eq hbody hd.part_eq hotherwise hq.part_eq hes⟩

theorem Forms.block (h : Forms ps es) (hps : ∀ p ∈ ps, p.kind.Genuine) : Block ps := by
  induction h with
  | nil => exact .nil
  | leaf hp _ ih =>
    rw [List.forall_mem_cons] at hps
    exact .element (writes_of_leaf hps.1 hp) (ih hps.2)
  | conditional hp _ hq _ ihbody ih =>
    simp only [List.forall_mem_cons, List.forall_mem_append] at hps
    obtain ⟨hpgenuine, hqs, -, hps⟩ := hps
    exact .conditional (writes_of_opening hpgenuine hp) (ihbody hqs) (writes_of_closing hq) (ih hps)
  | branches hp _ hd _ hq _ ihbody ihotherwise ih =>
    simp only [List.forall_mem_cons, List.forall_mem_append] at hps
    obtain ⟨hpgenuine, hqs, hdgenuine, hrs, -, hps⟩ := hps
    exact .branches (writes_of_opening hpgenuine hp) (ihbody hqs) (writes_of_divider hdgenuine hd)
      (ihotherwise hrs) (writes_of_closing hq) (ih hps)

/-- Where a source is cut into pieces, it is parsed to the elements of the block that they are. -/
theorem parseTemplate_eq_ok_of_pieces {source name : String} {stop : Cursor}
    (h : piecesOf source = .ok (ps, stop)) : parseTemplate source name = .ok es ↔ Forms ps es := by
  obtain ⟨slices, hslices, rfl⟩ := sliced_of_pieces h
  rw [parseTemplate_eq_ok_iff]
  constructor
  · rintro ⟨slices', hslices', hforms⟩
    -- a source has one list of slices
    cases hslices.unique hslices'
    exact hforms
  · exact fun hforms => ⟨slices, hslices, hforms⟩

end

/-- **A template is parsed exactly when its pieces are a block**, and to exactly the elements whose
walk its pieces write: one piece for each element by itself and for each tag of a conditional, in the
order of the walk, each element at the place of its piece and each text with its content. -/
theorem parses_exactly_blocks {source : String} {ps : List Piece} {stop : Cursor}
    (h : piecesOf source = .ok (ps, stop)) (name : String) :
    ((∃ root, parseTemplate source name = .ok root) ↔ Block ps) ∧
      ∀ root, parseTemplate source name = .ok root ↔
        List.Forall₂ Piece.Writes ps (Element.itemsAll root) := by
  have hgenuine : ∀ p ∈ ps, p.kind.Genuine := by
    obtain ⟨slices, hslices, rfl⟩ := sliced_of_pieces h
    exact hslices.genuine
  simp only [parseTemplate_eq_ok_of_pieces h]
  exact ⟨⟨fun ⟨_, hforms⟩ => hforms.block hgenuine, Block.forms⟩,
    fun root => forms_iff_writes hgenuine⟩

/-- A conditional with two branches, the second one of which is a conditional itself. -/
def nestedSource : String := "<#if x>a<#else><#if y>b</#if></#if>"

/-- The elements of that source. -/
def nestedElements : List Element :=
  [.conditional ⟨1, 1⟩ (.var "x") [.text ⟨1, 8⟩ "a"]
    (some [.conditional ⟨1, 16⟩ (.var "y") [.text ⟨1, 23⟩ "b"] none])]

/-- The pieces of a conditional inside a branch are a block, and write the walk through both. -/
theorem nested_is_block :
    ∃ ps stop root, piecesOf nestedSource = .ok (ps, stop) ∧
      Element.agreesAll root nestedElements = true ∧ Block ps ∧
      List.Forall₂ Piece.Writes ps (Element.itemsAll root) := by
  have hnames : IsName "x".toList ∧ IsName "y".toList := by decide
  have htexts : ("a" ≠ "" ∧ Unmarked "a".toList) ∧ "b" ≠ "" ∧ Unmarked "b".toList := by decide
  have hwellFormed : Element.AllWellFormed nestedElements :=
    ⟨⟨hnames.1, ⟨htexts.1, trivial⟩, ⟨hnames.2, htexts.2, trivial⟩, trivial⟩, trivial⟩
  have hseparated : Element.AllSeparated nestedElements :=
    ⟨⟨⟨trivial, nofun, trivial⟩, ⟨trivial, nofun, trivial⟩, nofun, trivial⟩, nofun, trivial⟩
  -- the source is the canonical form of these elements
  obtain ⟨root, hparse, hagrees, -⟩ := parseTemplate_canonicalAll hwellFormed hseparated "main"
  have hsource : Element.canonicalAll nestedElements = nestedSource := by rfl
  rw [hsource] at hparse
  obtain ⟨slices, hslices, -⟩ := parseTemplate_eq_ok_iff.mp hparse
  obtain ⟨hblock, hwalk⟩ := parses_exactly_blocks (pieces_of_sliced hslices) "main"
  exact ⟨_, _, root, pieces_of_sliced hslices, hagrees, hblock.mp ⟨root, hparse⟩,
    (hwalk root).mp hparse⟩

end Stencil

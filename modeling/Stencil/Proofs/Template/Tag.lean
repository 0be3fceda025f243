import Stencil.Proofs.Expr.Grammar
import Stencil.Proofs.Outcome
import Stencil.Template.Parser

/-!
# The insides of tags

The tokens inside a tag stand in front of the token that marks their end. An interpolation and a
condition are one expression; an assignment is a name, an equals sign and an expression; an
inclusion is an expression and then its attributes, each of them a name, an equals sign and an
expression. Reading the inside of a tag succeeds exactly when the tokens have this form.

## Main definitions

* `Listed ts written` says that the tokens list names with their expressions.
* `Attributes given ts given'` says that the tokens list attributes which extend `given`.

## Main results

* `wholeExpression_eq_ok_iff`, `assignment_eq_ok_iff` and `inclusionOf_eq_ok_iff`: what the inside
  of a tag is read as.
* `leaf_cases` and `opening_cases`: which pieces are elements, and which open a conditional.
-/

namespace Stencil

theorem readTagExpr_eq_ok {all tokens : List Token}
    {r : { r : Expr × List Token // r.2.length < tokens.length }} :
    readTagExpr all tokens = .ok r ↔ Expr.read all tokens = .ok r.1 := by
  unfold readTagExpr
  split
  · next r' h =>
    constructor
    · intro heq
      cases heq
      exact h
    · intro heq
      have hr : r' = r.1 := Except.ok.inj (h.symm.trans heq)
      exact congrArg Except.ok (Subtype.ext hr)
  · next e h => simp [h]

/-- The expression that the machine reads in a tag. -/
theorem readTagExpr_of_read {all tokens rest : List Token} {e : Expr}
    (h : Expr.read all tokens = .ok (e, rest)) :
    readTagExpr all tokens = .ok ⟨(e, rest), Expr.read_rest_length h⟩ :=
  readTagExpr_eq_ok.mpr h

variable {ts all : List Token} {stop : Nat} {e : Expr}

/-- Where an expression begins, the end does not stand first. -/
theorem Derives.front_ne_eof {k : Level} {us : List Token} (h : Derives k us e)
    (rest : List Token) : (front (us ++ rest)).1 ≠ .eof := by
  obtain ⟨t, us', rfl⟩ := List.exists_cons_of_ne_nil h.ne_nil
  exact h.kind_ne_eof t (by simp)

theorem head_of_front {rest : List Token} (h : (front rest).1 = .eof) :
    ∀ t ∈ rest.head?, t.kind = .eof := by
  cases rest with
  | nil => simp
  | cons t rest => simpa [front] using h

/-- What is derived is read up to the end. -/
theorem read_to_end (h : Derives .disjunction ts e) :
    Expr.read all (ts ++ [Token.endAt stop]) = .ok (e, [Token.endAt stop]) :=
  read_of_derives h (by simp [Token.endAt, Token.binaryOp?])

theorem wholeExpression_of_derives (h : Derives .disjunction ts e) :
    wholeExpression (ts ++ [Token.endAt stop]) = .ok e := by
  rw [wholeExpression, if_neg (h.front_ne_eof _)]
  exact bind_eq_ok.mpr ⟨_, readTagExpr_of_read (read_to_end h), rfl⟩

/-- The inside of a tag that is one expression. -/
theorem wholeExpression_eq_ok_iff (hts : ∀ t ∈ ts, t.kind ≠ .eof) :
    wholeExpression (ts ++ [Token.endAt stop]) = .ok e ↔ Derives .disjunction ts e := by
  constructor
  · intro h
    unfold wholeExpression at h
    split at h
    · cases h
    -- the expression is all there is: behind it only the end may stand
    obtain ⟨⟨⟨e', rest⟩, _⟩, hread, h⟩ := bind_eq_ok.mp h
    simp only at h
    split at h
    · next hrest =>
      cases h
      exact derives_of_read_to_end hts rfl (readTagExpr_eq_ok.mp hread) (head_of_front hrest)
    · cases h
  · exact wholeExpression_of_derives

theorem assignment_of_derives (directive : String) {name sign : Token}
    (hkind : name.kind = .identifier) (hsign : sign.isOperator "=" = true)
    (h : Derives .disjunction ts e) :
    assignment directive (name :: sign :: ts ++ [Token.endAt stop]) = .ok (name.text, e) := by
  simp only [List.cons_append, assignment, hkind, hsign]
  exact bind_eq_ok.mpr ⟨_, readTagExpr_of_read (read_to_end h), rfl⟩

/-- The inside of an assignment. -/
theorem assignment_eq_ok_iff {directive name : String} (hts : ∀ t ∈ ts, t.kind ≠ .eof) :
    assignment directive (ts ++ [Token.endAt stop]) = .ok (name, e) ↔
      ∃ t sign vs, ts = t :: sign :: vs ∧ t.kind = .identifier ∧ t.text = name ∧
        sign.isOperator "=" = true ∧ Derives .disjunction vs e := by
  constructor
  · intro h
    rcases ts with _ | ⟨t, _ | ⟨sign, vs⟩⟩
    · cases h
    · -- the end is no equals sign
      have hsign : (t.kind = .identifier && (Token.endAt stop).isOperator "=") = false := by
        simp [Token.endAt, Token.isOperator]
      simp only [List.cons_append, List.nil_append, assignment, hsign] at h
      cases h
    · simp only [List.cons_append, assignment] at h
      split at h
      · next hform =>
        obtain ⟨hkind, hsign⟩ := Bool.and_eq_true_iff.mp hform
        obtain ⟨⟨⟨e', rest⟩, _⟩, hread, h⟩ := bind_eq_ok.mp h
        simp only at h
        split at h
        · next hrest =>
          cases h
          have hvs : ∀ v ∈ vs, v.kind ≠ .eof := fun v hv => hts v (by simp [hv])
          exact ⟨t, sign, vs, rfl, of_decide_eq_true hkind, rfl, hsign,
            derives_of_read_to_end hvs rfl (readTagExpr_eq_ok.mp hread) (head_of_front hrest)⟩
        · cases h
      · cases h
  · rintro ⟨t, sign, vs, rfl, hkind, rfl, hsign, hder⟩
    exact assignment_of_derives directive hkind hsign hder

/-! ## Inclusions -/

/-- The tokens list these names, each with an equals sign and the tokens of its expression behind it. -/
inductive Listed : List Token → List (String × Expr) → Prop
  | nil : Listed [] []
  | cons {name sign : Token} {vs ts : List Token} {e : Expr} {written : List (String × Expr)}
      (hkind : name.kind = if isKeyword name.text.toList then .keyword else .identifier)
      (hsign : sign.isOperator "=" = true) (hvalue : Derives .disjunction vs e)
      (hnext : Listed ts written) : Listed (name :: sign :: (vs ++ ts)) ((name.text, e) :: written)

/-- No operator stands in front of a name. -/
theorem Listed.head_binaryOp? {written : List (String × Expr)} (h : Listed ts written) :
    ∀ t ∈ (ts ++ [Token.endAt stop]).head?, t.binaryOp? = none := by
  cases h with
  | nil => simp [Token.endAt, Token.binaryOp?]
  | @cons name _ _ _ _ _ hkind =>
    intro t ht
    cases ht
    have hoperator : name.kind ≠ .operator := by rw [hkind]; split <;> simp
    rw [Token.binaryOp?, if_neg hoperator]

/-- The tokens list attributes, which extend those already given; none is given twice. -/
inductive Attributes : List (IncludeAttribute × Expr) → List Token →
    List (IncludeAttribute × Expr) → Prop
  | done {given : List (IncludeAttribute × Expr)} : Attributes given [] given
  | next {given given' : List (IncludeAttribute × Expr)} {name sign : Token} {vs ts : List Token}
      {a : IncludeAttribute} {e : Expr} (hkind : name.kind = .identifier)
      (hsign : sign.isOperator "=" = true) (ha : IncludeAttribute.ofName? name.text = some a)
      (hnew : given.lookup a = none) (hvalue : Derives .disjunction vs e)
      (hnext : Attributes (given ++ [(a, e)]) ts given') :
      Attributes given (name :: sign :: (vs ++ ts)) given'

/-- Attributes go on with no expression in front of them. -/
theorem Attributes.head_binaryOp? {given given' : List (IncludeAttribute × Expr)}
    (h : Attributes given ts given') :
    ∀ t ∈ (ts ++ [Token.endAt stop]).head?, t.binaryOp? = none := by
  cases h with
  | done => simp [Token.endAt, Token.binaryOp?]
  | @next _ _ name _ _ _ _ _ hkind =>
    intro t ht
    cases ht
    rw [Token.binaryOp?, if_neg (by simp [hkind])]

/-- An attribute under the name that tags have for it. -/
def IncludeAttribute.named (a : IncludeAttribute × Expr) : String × Expr := (a.1.name, a.2)

theorem IncludeAttribute.ofName?_name (a : IncludeAttribute) : ofName? a.name = some a := by
  cases a <;> rfl

theorem IncludeAttribute.isKeyword_name (a : IncludeAttribute) :
    isKeyword a.name.toList = false := by
  cases a <;> decide

/-- Names that are all those of attributes, none twice, list attributes. -/
theorem Listed.attributes {written : List (String × Expr)}
    {given as : List (IncludeAttribute × Expr)} (h : Listed ts written)
    (hwritten : written = as.map IncludeAttribute.named) (hnew : ((given ++ as).map Prod.fst).Nodup) :
    Attributes given ts (given ++ as) := by
  -- on the attributes still to come: each moves over to those given
  induction h generalizing given as with
  | nil =>
    rw [List.map_eq_nil_iff.mp hwritten.symm, List.append_nil]
    exact .done
  | @cons name sign vs ts e written hkind hsign hvalue _ ih =>
    obtain ⟨⟨a, e⟩, as, rfl, hhead, rfl⟩ := List.map_eq_cons_iff.mp hwritten.symm
    obtain ⟨hname, rfl⟩ := Prod.mk.inj hhead
    have hidentifier : name.kind = .identifier := by
      rw [hkind, ← hname, a.isKeyword_name, if_neg Bool.false_ne_true]
    -- no attribute comes twice, so this one is new
    have hlookup : given.lookup a = none := by
      refine List.lookup_eq_none_iff.mpr fun b hb => bne_iff_ne.mpr ?_
      rw [List.map_append, List.nodup_append] at hnew
      exact (hnew.2.2 b.1 (List.mem_map_of_mem hb) a (by simp)).symm
    have hnext : Attributes (given ++ [(a, e)]) ts (given ++ [(a, e)] ++ as) :=
      ih rfl (by rwa [List.append_assoc])
    rw [List.append_assoc] at hnext
    exact .next hidentifier hsign (hname ▸ a.ofName?_name) hlookup hvalue hnext

theorem readAttributes_of_attributes {given given' : List (IncludeAttribute × Expr)}
    (h : Attributes given ts given') :
    readAttributes all given (ts ++ [Token.endAt stop]) = .ok given' := by
  induction h with
  | done => rw [List.nil_append, readAttributes, if_pos (by rfl)]
  | @next given given' name sign vs ts a e hkind hsign ha hnew hvalue hnext ih =>
    have hread : readTagExpr all (vs ++ (ts ++ [Token.endAt stop])) = .ok ⟨(e, _), _⟩ :=
      readTagExpr_of_read (read_of_derives hvalue hnext.head_binaryOp?)
    rw [List.cons_append, List.cons_append, List.append_assoc, readAttributes,
      if_neg (by simp [hkind])]
    simp only [hkind, hsign, ha, hnew, hread, ih, Option.isSome_none, Bool.false_eq_true, if_false,
      decide_true, Bool.and_self, if_true]

theorem attributes_of_readAttributes (hts : ∀ t ∈ ts, t.kind ≠ .eof)
    {given given' : List (IncludeAttribute × Expr)}
    (h : readAttributes all given (ts ++ [Token.endAt stop]) = .ok given') :
    Attributes given ts given' := by
  obtain ⟨n, hn⟩ : ∃ n, ts.length = n := ⟨_, rfl⟩
  -- on the number of tokens: the value of an attribute takes any number of them
  induction n using Nat.strongRecOn generalizing ts given with
  | ind n ih =>
    rcases ts with _ | ⟨name, ts⟩
    · rw [List.nil_append, readAttributes, if_pos (by rfl)] at h
      cases h
      exact .done
    · rw [List.cons_append, readAttributes.eq_def] at h
      simp only [hts name List.mem_cons_self, if_false] at h
      rcases ts with _ | ⟨sign, ts⟩
      · have hsign : (name.kind = .identifier && (Token.endAt stop).isOperator "=") = false := by
          simp [Token.endAt, Token.isOperator]
        simp only [List.nil_append, hsign] at h
        cases h
      · simp only [List.cons_append] at h
        split at h
        · next hform =>
          obtain ⟨hkind, hsign⟩ := Bool.and_eq_true_iff.mp hform
          split at h
          · cases h
          · next a ha =>
            split at h
            · cases h
            · next hnew =>
              split at h
              · next e rest _ hread =>
                -- the value ends where the next attribute begins, at the latest in front of the end
                obtain ⟨us, vs, rfl, rfl, hder⟩ :=
                  derives_of_read_before_end rfl (readTagExpr_eq_ok.mp hread)
                have hvs : ∀ t ∈ vs, t.kind ≠ .eof := fun t ht => hts t (by simp [ht])
                have hshorter : vs.length < n := by
                  rw [← hn]
                  simp only [List.length_cons, List.length_append]
                  omega
                exact .next (of_decide_eq_true hkind) hsign ha
                  (Option.not_isSome_iff_eq_none.mp hnew) hder
                  (ih _ hshorter hvs h rfl)
              · cases h
        · cases h

/-- Behind the target of an inclusion its attributes are read, and then they are folded. -/
theorem inclusionOf_of_target {us rest : List Token} {target : Expr}
    (h : Derives .disjunction us target) (hrest : ∀ t ∈ rest.head?, t.binaryOp? = none) :
    inclusionOf (us ++ rest) = readAttributes (us ++ rest) [] rest >>= fun given =>
      (Inclusion.fold target (given.lookup .encoding) (given.lookup .parse)
        (given.lookup .ignoreMissing)).mapError ofFoldError := by
  rw [inclusionOf, if_neg (h.front_ne_eof _)]
  change (readTagExpr (us ++ rest) (us ++ rest) >>= _) = _
  rw [readTagExpr_of_read (read_of_derives h hrest)]
  rfl

theorem inclusionOf_of_derives {us vs : List Token} {target : Expr}
    {given : List (IncludeAttribute × Expr)} (h : Derives .disjunction us target)
    (hattributes : Attributes [] vs given) :
    inclusionOf (us ++ vs ++ [Token.endAt stop]) =
      (Inclusion.fold target (given.lookup .encoding) (given.lookup .parse)
        (given.lookup .ignoreMissing)).mapError ofFoldError := by
  rw [List.append_assoc, inclusionOf_of_target h hattributes.head_binaryOp?,
    readAttributes_of_attributes hattributes]
  rfl

/-- The inside of an inclusion: its target, and attributes that can be folded. -/
theorem inclusionOf_eq_ok_iff {i : Inclusion} (hts : ∀ t ∈ ts, t.kind ≠ .eof) :
    inclusionOf (ts ++ [Token.endAt stop]) = .ok i ↔
      ∃ us vs target given, ts = us ++ vs ∧ Derives .disjunction us target ∧
        Attributes [] vs given ∧
        Inclusion.fold target (given.lookup .encoding) (given.lookup .parse)
          (given.lookup .ignoreMissing) = .ok i := by
  constructor
  · intro h
    unfold inclusionOf at h
    split at h
    · cases h
    obtain ⟨⟨⟨target, rest⟩, _⟩, hread, hbind⟩ := bind_eq_ok.mp h
    obtain ⟨given, hattributes, hresult⟩ := bind_eq_ok.mp hbind
    -- the target ends where the attributes begin
    obtain ⟨us, vs, rfl, rfl, hder⟩ := derives_of_read_before_end rfl (readTagExpr_eq_ok.mp hread)
    have hvs : ∀ t ∈ vs, t.kind ≠ .eof := fun t ht => hts t (by simp [ht])
    refine ⟨us, vs, target, given, rfl, hder, attributes_of_readAttributes hvs hattributes, ?_⟩
    cases hfold : Inclusion.fold target (given.lookup .encoding) (given.lookup .parse)
        (given.lookup .ignoreMissing) with
    | error e => rw [hfold] at hresult; cases hresult
    | ok j => rw [hfold] at hresult; cases hresult; rfl
  · rintro ⟨us, vs, target, given, rfl, hder, hattributes, hfold⟩
    rw [inclusionOf_of_derives hder hattributes, hfold]
    rfl

/-! ## The parts that tags play -/

/-- What a piece is if it is an element by itself. -/
theorem leaf_cases {p : Piece} {e : Element} (hp : p.part = .leaf (.ok e)) :
    (∃ s, p.kind = .text s ∧ e = .text p.place s) ∨
      (∃ tokens v, p.kind = .interpolation tokens ∧ wholeExpression tokens = .ok v ∧
        e = .interpolation p.place v) ∨
      (∃ scope tokens selfClosing name v,
        p.kind = .directive (AssignScope.directive scope) tokens selfClosing ∧
        assignment scope.directive tokens = .ok (name, v) ∧ e = .assign p.place scope name v) ∨
      ∃ tokens selfClosing i, p.kind = .directive "include" tokens selfClosing ∧
        inclusionOf tokens = .ok i ∧ e = .inclusion p.place i := by
  obtain ⟨kind, place⟩ := p
  cases kind with
  | text s =>
    cases hp
    exact Or.inl ⟨s, rfl, rfl⟩
  | interpolation tokens =>
    obtain ⟨v, hv, rfl⟩ := map_eq_ok.mp (Part.leaf.inj hp)
    exact Or.inr (Or.inl ⟨tokens, v, rfl, hv, rfl⟩)
  | directive name tokens selfClosing =>
    change directivePart place name tokens selfClosing = _ at hp
    unfold directivePart at hp
    split at hp
    -- one case for each directive, and a last one for unknown names
    · obtain ⟨i, hi, rfl⟩ := map_eq_ok.mp (Part.leaf.inj hp)
      exact Or.inr (Or.inr (Or.inr ⟨tokens, selfClosing, i, rfl, hi, rfl⟩))
    · cases hp
    · obtain ⟨⟨target, v⟩, hv, rfl⟩ := map_eq_ok.mp (Part.leaf.inj hp)
      exact Or.inr (Or.inr (Or.inl ⟨.template, tokens, selfClosing, target, v, rfl, hv, rfl⟩))
    · obtain ⟨⟨target, v⟩, hv, rfl⟩ := map_eq_ok.mp (Part.leaf.inj hp)
      exact Or.inr (Or.inr (Or.inl ⟨.render, tokens, selfClosing, target, v, rfl, hv, rfl⟩))
    · cases hp
    · cases Part.leaf.inj hp
  | endTag name => cases hp

/-- Only the tag of a conditional opens one. -/
theorem opening_cases {p : Piece} {c : Expr} (hp : p.part = .opening (.ok c)) :
    ∃ tokens, p.kind = .directive "if" tokens false ∧ wholeExpression tokens = .ok c := by
  obtain ⟨kind, place⟩ := p
  cases kind with
  | text s => cases hp
  | interpolation tokens => cases hp
  | directive name tokens selfClosing =>
    change directivePart place name tokens selfClosing = _ at hp
    unfold directivePart at hp
    split at hp
    · cases hp
    · have hcondition := Part.opening.inj hp
      split at hcondition
      · cases hcondition
      · next hopen => exact ⟨tokens, by rw [Bool.eq_false_iff.mpr hopen], hcondition⟩
    · cases hp
    · cases hp
    · cases hp
    · cases hp
  | endTag name => cases hp

end Stencil

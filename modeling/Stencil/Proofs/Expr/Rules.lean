import Stencil.Proofs.Expr.RoundTrip

/-!
# The grammar, rule by rule

The grammar of expressions as it is written down, with repetitions and options:

    expression  →  or
    or          →  and ("||" and)*
    and         →  not ("&&" not)*
    not         →  "!" not | equality
    equality    →  additive (("==" | "!=") additive)?
    additive    →  primary ("+" primary)*
    primary     →  a literal | a name | "(" expression ")"

A repetition stands for the expression that groups its operands to the left. These rules derive what
the grammar of levels derives, so reading accepts exactly what they derive, and from any place in any
list of tokens it takes exactly the tokens of an expression.

## Main definitions

* `Phrase k ts e` says that the rule of the level `k` derives the tokens `ts`, which stand for `e`.
* `Repeated op l ts e` says the same of the repetition of the operator `op` behind the operand `l`.

## Main results

* `phrase_iff_derives`: the rules derive what the grammar of levels derives.
* `Expr.readAt_derives` and `Expr.readAt_of_derives`: what is read from a place in a list of tokens.
* `Expr.accepts_exactly_grammar`: reading accepts exactly the grammar.
-/

namespace Stencil

mutual

/-- The rule of the level derives the tokens, which stand for the expression. -/
inductive Phrase : Level → List Token → Expr → Prop
  | disjunction {ts us : List Token} {l e : Expr} (hl : Phrase .conjunction ts l)
      (h : Repeated .or l us e) : Phrase .disjunction (ts ++ us) e
  | conjunction {ts us : List Token} {l e : Expr} (hl : Phrase .negation ts l)
      (h : Repeated .and l us e) : Phrase .conjunction (ts ++ us) e
  | negated {t : Token} {ts : List Token} {e : Expr} (ht : t.isOperator "!" = true)
      (h : Phrase .negation ts e) : Phrase .negation (t :: ts) (.not e)
  | notNegated {ts : List Token} {e : Expr} (h : Phrase .equality ts e) : Phrase .negation ts e
  | compared {op : BinaryOp} {t : Token} {ts us : List Token} {l r : Expr}
      (hl : Phrase .additive ts l) (hop : op = .eq ∨ op = .ne) (ht : t.binaryOp? = some op)
      (hr : Phrase .additive us r) : Phrase .equality (ts ++ t :: us) (.binary op l r)
  | notCompared {ts : List Token} {e : Expr} (h : Phrase .additive ts e) : Phrase .equality ts e
  | additive {ts us : List Token} {l e : Expr} (hl : Phrase .primary ts l)
      (h : Repeated .add l us e) : Phrase .additive (ts ++ us) e
  | operand {t : Token} {e : Expr} (ht : t.operand? = some e) : Phrase .primary [t] e
  | group {l r : Token} {ts : List Token} {e : Expr} (hl : l.isSymbol "(" = true)
      (h : Phrase .disjunction ts e) (hr : r.isSymbol ")" = true) :
      Phrase .primary (l :: (ts ++ [r])) (.group e)

/-- The tokens repeat the operator, each time with one operand more, behind the operand `l`. -/
inductive Repeated : BinaryOp → Expr → List Token → Expr → Prop
  | done {op : BinaryOp} {l : Expr} : Repeated op l [] l
  | more {op : BinaryOp} {t : Token} {ts us : List Token} {l r e : Expr}
      (ht : t.binaryOp? = some op) (hr : Phrase op.rightLevel ts r)
      (h : Repeated op (.binary op l r) us e) : Repeated op l (t :: (ts ++ us)) e

end

/-! ## The rules and the levels -/

theorem derives_comparison {op : BinaryOp} {t : Token} {ts us : List Token} {l r : Expr}
    (hl : Derives .additive ts l) (hop : op = .eq ∨ op = .ne) (ht : t.binaryOp? = some op)
    (hr : Derives .additive us r) : Derives .equality (ts ++ t :: us) (.binary op l r) := by
  rcases hop with rfl | rfl
  · exact @Derives.binary .eq t ts us l r hl ht hr
  · exact @Derives.binary .ne t ts us l r hl ht hr

mutual

theorem Phrase.derives {k : Level} {ts : List Token} {e : Expr} : Phrase k ts e → Derives k ts e
  | .disjunction hl h => h.derives rfl (.loosen (by decide) hl.derives)
  | .conjunction hl h => h.derives rfl (.loosen (by decide) hl.derives)
  | .negated ht h => .not ht h.derives
  | .notNegated h => .loosen (by decide) h.derives
  | .compared hl hop ht hr => derives_comparison hl.derives hop ht hr.derives
  | .notCompared h => .loosen (by decide) h.derives
  | .additive hl h => h.derives rfl (.loosen (by decide) hl.derives)
  | .operand ht => .operand ht
  | .group hl h hr => .group hl h.derives hr

/-- Where the operations of an operator group to the left, its repetition goes on with an operand of
their own level. -/
theorem Repeated.derives {op : BinaryOp} {l e : Expr} {ts us : List Token} :
    Repeated op l us e → op.leftLevel = op.result → Derives op.leftLevel ts l →
      Derives op.leftLevel (ts ++ us) e
  | .done, _, hl => by rwa [List.append_nil]
  | .more ht hr h, hop, hl => by
    have hoperation := Derives.binary hl ht hr.derives
    rw [← hop] at hoperation
    simpa using h.derives hop hoperation

end

/-- A repetition goes on with one operand more. -/
theorem Repeated.snoc {op : BinaryOp} {t : Token} {us : List Token} {r : Expr}
    (ht : t.binaryOp? = some op) (hr : Phrase op.rightLevel us r) {ts : List Token} {l m : Expr} :
    Repeated op l ts m → Repeated op l (ts ++ t :: us) (.binary op m r)
  | .done => by simpa using Repeated.more ht hr .done
  | .more ht' hr' h => by simpa using Repeated.more ht' hr' (h.snoc ht hr)

theorem Level.eq_of_rank {j k : Level} (h : j.rank = k.rank) : j = k := by
  cases j <;> cases k <;> first | rfl | cases h

theorem Level.exists_tighter {k : Level} (h : 0 < k.rank) : ∃ j : Level, j.rank + 1 = k.rank := by
  cases k with
  | primary => cases h
  | additive => exact ⟨.primary, rfl⟩
  | equality => exact ⟨.additive, rfl⟩
  | negation => exact ⟨.equality, rfl⟩
  | conjunction => exact ⟨.negation, rfl⟩
  | disjunction => exact ⟨.conjunction, rfl⟩

/-- By the rule of the next level a phrase is followed by an empty repetition, or an option is not
taken. -/
theorem Phrase.next {j k : Level} {ts : List Token} {e : Expr} (h : Phrase j ts e)
    (hjk : j.rank + 1 = k.rank) : Phrase k ts e := by
  cases k with
  | primary => cases hjk
  | additive =>
    obtain rfl : j = .primary := Level.eq_of_rank (Nat.succ.inj hjk)
    simpa using Phrase.additive h .done
  | equality =>
    obtain rfl : j = .additive := Level.eq_of_rank (Nat.succ.inj hjk)
    exact .notCompared h
  | negation =>
    obtain rfl : j = .equality := Level.eq_of_rank (Nat.succ.inj hjk)
    exact .notNegated h
  | conjunction =>
    obtain rfl : j = .negation := Level.eq_of_rank (Nat.succ.inj hjk)
    simpa using Phrase.conjunction h .done
  | disjunction =>
    obtain rfl : j = .conjunction := Level.eq_of_rank (Nat.succ.inj hjk)
    simpa using Phrase.disjunction h .done

/-- A phrase of a level is one of every looser level. -/
theorem Phrase.loosen {j k : Level} {ts : List Token} {e : Expr} (h : Phrase j ts e)
    (hjk : j.rank ≤ k.rank) : Phrase k ts e := by
  obtain ⟨n, hn⟩ := Nat.exists_eq_add_of_le hjk
  -- on the number of levels between them, from the looser one down
  induction n generalizing k with
  | zero =>
    obtain rfl : k = j := Level.eq_of_rank hn
    exact h
  | succ n ih =>
    obtain ⟨l, hl⟩ := Level.exists_tighter (k := k) (by omega)
    have hlevel : l.rank = j.rank + n := by omega
    exact (ih (by omega) hlevel).next hl

theorem phrase_of_derives {k : Level} {ts : List Token} {e : Expr} (h : Derives k ts e) :
    Phrase k ts e := by
  -- an operation joins the repetition that its left operand ends in
  induction h with
  | operand ht => exact .operand ht
  | group hl _ hr ih => exact .group hl ih hr
  | not ht _ ih => exact .negated ht ih
  | @binary op t ts us l r _ ht _ ihl ihr =>
    cases op with
    | add =>
      cases ihl with
      | additive hl h =>
        rw [List.append_assoc]
        exact .additive hl (h.snoc ht ihr)
    | eq => exact .compared ihl (.inl rfl) ht ihr
    | ne => exact .compared ihl (.inr rfl) ht ihr
    | and =>
      cases ihl with
      | conjunction hl h =>
        rw [List.append_assoc]
        exact .conjunction hl (h.snoc ht ihr)
    | or =>
      cases ihl with
      | disjunction hl h =>
        rw [List.append_assoc]
        exact .disjunction hl (h.snoc ht ihr)
  | loosen hjk _ ih => exact ih.loosen hjk

/-- **The rules derive what the grammar of levels derives.** -/
theorem phrase_iff_derives {k : Level} {ts : List Token} {e : Expr} :
    Phrase k ts e ↔ Derives k ts e :=
  ⟨Phrase.derives, phrase_of_derives⟩

/-- Tokens are a phrase of one expression at most. -/
theorem Phrase.unique {k : Level} {ts : List Token} {e e' : Expr} (h : Phrase k ts e)
    (h' : Phrase k ts e') : e = e' := by
  -- the machine reads both, and it reads one expression
  have hread : Expr.read [] (ts ++ []) = .ok (e, []) :=
    read_of_derives h.derives.weaken (by simp)
  have hread' : Expr.read [] (ts ++ []) = .ok (e', []) :=
    read_of_derives h'.derives.weaken (by simp)
  rw [hread] at hread'
  cases hread'
  rfl

/-! ## Reading from a place in a list of tokens -/

namespace Expr

variable {tokens : List Token} {p q : Nat} {e : Expr}

theorem readAt_eq_ok_iff :
    readAt tokens p = .ok (e, q) ↔
      ∃ rest, read tokens (tokens.drop p) = .ok (e, rest) ∧ q = tokens.length - rest.length := by
  unfold readAt
  constructor
  · intro h
    obtain ⟨⟨e', rest⟩, hread, hresult⟩ := bind_eq_ok.mp h
    cases hresult
    exact ⟨rest, hread, rfl⟩
  · rintro ⟨rest, hread, rfl⟩
    exact bind_eq_ok.mpr ⟨_, hread, rfl⟩

/-- What is read from a place is derived from the tokens up to the place behind it, of which there is
one at least. -/
theorem readAt_derives (h : readAt tokens p = .ok (e, q)) :
    p < q ∧ q ≤ tokens.length ∧ Phrase .disjunction ((tokens.drop p).take (q - p)) e := by
  obtain ⟨rest, hread, rfl⟩ := readAt_eq_ok_iff.mp h
  obtain ⟨us, hus, hder⟩ := derives_of_read hread
  have hlength : tokens.length - p = us.length + rest.length := by
    simpa using congrArg List.length hus
  have hpos : 0 < us.length := List.length_pos_iff.mpr hder.ne_nil
  have htaken : tokens.length - rest.length - p = us.length := by omega
  refine ⟨by omega, Nat.sub_le _ _, ?_⟩
  rw [htaken, hus, List.take_left]
  exact phrase_of_derives hder

/-- Tokens that are derived are read, where no binary operator follows. -/
theorem readAt_of_derives (hq : q ≤ tokens.length)
    (h : Phrase .disjunction ((tokens.drop p).take (q - p)) e)
    (hnext : ∀ t, tokens[q]? = some t → t.binaryOp? = none) : readAt tokens p = .ok (e, q) := by
  have hne : (tokens.drop p).take (q - p) ≠ [] := h.derives.ne_nil
  have hpq : p < q := by
    rcases Nat.lt_or_ge p q with hlt | hge
    · exact hlt
    · rw [Nat.sub_eq_zero_of_le hge] at hne
      exact absurd rfl hne
  have hsplit : tokens.drop p = (tokens.drop p).take (q - p) ++ tokens.drop q := by
    have hdrop : tokens.drop q = (tokens.drop p).drop (q - p) := by
      rw [List.drop_drop]
      congr 1
      omega
    rw [hdrop, List.take_append_drop]
  have hread : read tokens (tokens.drop p) = .ok (e, tokens.drop q) := by
    rw [hsplit]
    refine read_of_derives h.derives fun t ht => hnext t ?_
    rwa [List.head?_drop] at ht
  refine readAt_eq_ok_iff.mpr ⟨_, hread, ?_⟩
  rw [List.length_drop]
  omega

/-! ## The theorem on the grammar -/

/-- **Reading accepts exactly the grammar.** A text is read as an expression exactly when it is cut
into tokens that the rules derive, and then as the expression that they stand for; there is no other
one. In any list of tokens, what is read from a place is derived from the tokens that are taken, one at
least; and tokens that are derived are taken, as that expression, where no binary operator stands
behind them. -/
theorem accepts_exactly_grammar :
    (∀ text e, parse text = .ok e ↔
      ∃ ts stop, Token.list text = .ok (ts ++ [Token.endAt stop]) ∧ Phrase .disjunction ts e) ∧
    (∀ ts e e', Phrase .disjunction ts e → Phrase .disjunction ts e' → e = e') ∧
    (∀ tokens p e q, readAt tokens p = .ok (e, q) →
      p < q ∧ q ≤ tokens.length ∧ Phrase .disjunction ((tokens.drop p).take (q - p)) e) ∧
    ∀ tokens p e q, q ≤ tokens.length → Phrase .disjunction ((tokens.drop p).take (q - p)) e →
      (∀ t, tokens[q]? = some t → t.binaryOp? = none) → readAt tokens p = .ok (e, q) := by
  refine ⟨fun text e => ?_, fun ts e e' h h' => h.unique h', fun tokens p e q => readAt_derives,
    fun tokens p e q => readAt_of_derives⟩
  rw [parse_eq_ok_iff]
  constructor
  · rintro ⟨ts, stop, hscan, hder⟩
    exact ⟨ts, stop, list_eq_ok_iff.mpr ⟨ts, stop, hscan, rfl⟩, phrase_of_derives hder⟩
  · rintro ⟨ts, stop, hlist, hphrase⟩
    obtain ⟨us, stop', hscan, htokens⟩ := list_eq_ok_iff.mp hlist
    obtain ⟨rfl, -⟩ := List.append_inj' htokens rfl
    exact ⟨ts, stop', hscan, hphrase.derives⟩

/-- The tokens of `) a + b + c == 1 )`. -/
def comparisonTokens : List Token :=
  [⟨.symbol, ")", 0⟩, ⟨.identifier, "a", 2⟩, ⟨.operator, "+", 4⟩, ⟨.identifier, "b", 6⟩,
    ⟨.operator, "+", 8⟩, ⟨.identifier, "c", 10⟩, ⟨.operator, "==", 12⟩, ⟨.number, "1", 15⟩,
    ⟨.symbol, ")", 17⟩]

/-- Between the parentheses the sum groups to the left and is compared as a whole. The text that these
tokens write by themselves is read the same way. -/
theorem accepts_comparison_of_sum :
    let e := binary .eq (binary .add (binary .add (var "a") (var "b")) (var "c"))
      (number (.int 1) "1")
    Phrase .disjunction ((comparisonTokens.drop 1).take (8 - 1)) e ∧
      readAt comparisonTokens 1 = .ok (e, 8) ∧
      ∃ ts stop, Token.list "a + b + c == 1" = .ok (ts ++ [Token.endAt stop]) ∧
        Phrase .disjunction ts e := by
  intro e
  obtain ⟨hparse, -, hderives, hreads⟩ := accepts_exactly_grammar
  have hread : readAt comparisonTokens 1 = .ok (e, 8) := by rfl
  obtain ⟨-, -, hphrase⟩ := hderives comparisonTokens 1 e 8 hread
  have hstop : ∀ t, comparisonTokens[8]? = some t → t.binaryOp? = none := by
    intro t ht
    cases ht
    rfl
  have hnames : IsName "a".toList ∧ IsName "b".toList ∧ IsName "c".toList := by decide
  have hsum : (binary .add (binary .add (var "a") (var "b")) (var "c")).WellFormed :=
    ⟨by decide, by decide, ⟨by decide, by decide, hnames.1, hnames.2.1⟩, hnames.2.2⟩
  have hnumeral : IsNumeral "1".toList := @IsNumeral.whole '1' [] (List.all_eq_true.mp rfl)
  have hwf : e.WellFormed := ⟨by decide, by decide, hsum, hnumeral, rfl⟩
  have hcanonical : e.canonical = "a + b + c == 1" := rfl
  have htext : parse e.canonical = .ok e := parse_canonical hwf
  rw [hcanonical] at htext
  exact ⟨hphrase, hreads comparisonTokens 1 e 8 (by decide) hphrase hstop, (hparse _ e).mp htext⟩

end Expr

end Stencil

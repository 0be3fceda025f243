import Stencil.Proofs.Expr.Grammar
import Stencil.Proofs.Expr.Lexing
import Stencil.Proofs.Outcome

/-!
# The canonical form of an expression denotes it

An expression is well formed when its operands have the levels that the grammar asks for, its
numerals write its numbers, and its names are names. The canonical form of a well-formed expression
is scanned into tokens that derive it, so it is read back; and whatever is read from a text is well
formed.

## Main definitions

* `Expr.level` is the level of an expression, `Expr.WellFormed` says that it respects the levels.

## Main results

* `Expr.scans_canonical`: a canonical form is scanned into tokens that derive the expression.
* `Derives.wellFormed`: what genuine tokens derive is well formed.
* `Expr.round_trip`: reading and writing expressions are inverse.
-/

namespace Stencil

namespace Expr

/-- The tightest level that an expression has. -/
def level : Expr → Level
  | not _ => .negation
  | binary op _ _ => op.result
  | _ => .primary

/-- An expression respects the levels of the grammar: sums, conjunctions and disjunctions group to
the left, a comparison has no operand that is a comparison, and what is negated is a negation or
binds tighter. Numerals write the numbers they stand with, and names are names. -/
def WellFormed : Expr → Prop
  | str _ => True
  | number value text => IsNumeral text.toList ∧ value = numeralValue text
  | bool _ => True
  | var name => IsName name.toList
  | group inner => inner.WellFormed
  | not operand => operand.level.rank ≤ Level.negation.rank ∧ operand.WellFormed
  | binary op left right =>
    left.level.rank ≤ op.leftLevel.rank ∧ right.level.rank ≤ op.rightLevel.rank ∧
      left.WellFormed ∧ right.WellFormed

end Expr

/-! ## Lexemes of operators and parentheses -/

theorem lexes_symbol {c : Char} (h : c = '(' ∨ c = ')' ∨ c = '\x7d') (rest : List Char) :
    Lexes .symbol [c] rest := by
  refine ⟨c, [], rfl, ?_⟩
  rcases h with rfl | rfl | rfl <;> rfl

theorem lexes_binaryOp (op : BinaryOp) (rest : List Char) :
    Lexes .operator op.symbol.toList rest := by
  cases op with
  | add => exact ⟨'+', [], rfl, rfl⟩
  | eq => exact ⟨'=', ['='], rfl, rfl⟩
  | ne => exact ⟨'!', ['='], rfl, rfl⟩
  | and => exact ⟨'&', ['&'], rfl, rfl⟩
  | or => exact ⟨'|', ['|'], rfl, rfl⟩

/-- A `!` or `=` stands alone where no `=` follows. -/
theorem lexes_single {c : Char} (h : c = '!' ∨ c = '=') {rest : List Char}
    (hrest : rest.head? ≠ some '=') : Lexes .operator [c] rest := by
  refine ⟨c, [], rfl, ?_⟩
  have hlength : operatorLength '=' rest = 0 := by
    rw [operatorLength, if_neg hrest]
  rcases h with rfl | rfl <;>
  · rw [munch, if_neg (by decide), if_neg (by decide), if_neg (by decide), if_neg (by decide),
      if_neg (by decide), if_neg (by decide), if_pos (by decide), List.nil_append, hlength]
    rfl

namespace Scans

variable {stops : List String} {depth position : Nat} {rest : List Char}

/-- Behind an opening parenthesis the scan is one level deeper. -/
theorem opening : Scans stops depth (depth + 1) position ['('] rest [⟨.symbol, "(", position⟩] :=
  lexeme (lexes_symbol (Or.inl rfl) rest) (by simp [stopsAt])

theorem closing : Scans stops (depth + 1) depth position [')'] rest [⟨.symbol, ")", position⟩] :=
  lexeme (lexes_symbol (Or.inr (Or.inl rfl)) rest) (by simp [stopsAt])

end Scans

theorem BinaryOp.inner_symbol (op : BinaryOp) : ∀ c ∈ op.symbol.toList.head?, Inner c := by
  cases op <;> (rintro c hc; cases hc; decide)

/-! ## Tokens of literals and operators -/

namespace Token

variable (position : Nat)

theorem isSymbol_self (sign : String) : isSymbol ⟨.symbol, sign, position⟩ sign = true := by
  simp [isSymbol]

theorem isOperator_self (sign : String) : isOperator ⟨.operator, sign, position⟩ sign = true := by
  simp [isOperator]

theorem operand?_string (s : String) :
    operand? ⟨.string, String.ofList ('"' :: (Quoted.encode s.toList ++ ['"'])), position⟩ =
      some (.str s) := by
  simp [operand?, unquote, Quoted.decode_encode]

theorem operand?_number (text : String) :
    operand? ⟨.number, String.ofList text.toList, position⟩ =
      some (.number (numeralValue text) text) := by
  simp [operand?]

theorem operand?_bool (value : Bool) :
    operand? ⟨.keyword, String.ofList (if value then "true" else "false").toList, position⟩ =
      some (.bool value) := by
  cases value <;> simp [operand?]

theorem operand?_name (name : String) :
    operand? ⟨.identifier, String.ofList name.toList, position⟩ = some (.var name) := by
  simp [operand?]

theorem binaryOp?_symbol (op : BinaryOp) :
    binaryOp? ⟨.operator, String.ofList op.symbol.toList, position⟩ = some op := by
  cases op <;> simp [binaryOp?, BinaryOp.symbol]

end Token

/-! ## Scanning canonical forms -/

namespace Expr

theorem toList_canonical_str (s : String) :
    (str s).canonical.toList = '"' :: (Quoted.encode s.toList ++ ['"']) := by
  simp [canonical, quote]

theorem toList_canonical_group (inner : Expr) :
    (group inner).canonical.toList = ['('] ++ (inner.canonical.toList ++ [')']) := by
  simp [canonical]

theorem toList_canonical_not (operand : Expr) :
    (not operand).canonical.toList = ['!'] ++ operand.canonical.toList := by
  simp [canonical]

theorem toList_canonical_binary (op : BinaryOp) (left right : Expr) :
    (binary op left right).canonical.toList =
      left.canonical.toList ++
        ([' '] ++ (op.symbol.toList ++ ([' '] ++ right.canonical.toList))) := by
  simp [canonical]

/-- A canonical form begins with a character that no blank and no `=` is. -/
theorem canonical_head {e : Expr} (h : e.WellFormed) :
    ∃ c cs, e.canonical.toList = c :: cs ∧ isBlank c = false ∧ c ≠ '=' := by
  induction e with
  | str s => exact ⟨'"', _, toList_canonical_str s, by decide, by decide⟩
  | number value text =>
    obtain ⟨hnumeral, -⟩ := h
    rw [canonical]
    generalize text.toList = cs at hnumeral
    have hdigit : ∀ {c : Char}, isDigit c = true → isBlank c = false ∧ c ≠ '=' := fun hc =>
      ⟨isBlank_of_isDigit hc, by rintro rfl; exact absurd hc (by decide)⟩
    cases hnumeral with
    | whole h => exact ⟨_, _, rfl, hdigit (h _ List.mem_cons_self)⟩
    | fraction h _ => exact ⟨_, _, rfl, hdigit (h _ List.mem_cons_self)⟩
  | bool value => cases value <;> exact ⟨_, _, rfl, by decide, by decide⟩
  | var name =>
    obtain ⟨hword, -⟩ := h
    rw [canonical]
    generalize name.toList = cs at hword
    obtain ⟨hstart, -⟩ := hword
    exact ⟨_, _, rfl, isBlank_of_isNameStart hstart,
      by rintro rfl; exact absurd hstart (by decide)⟩
  | group inner => exact ⟨'(', _, toList_canonical_group inner, by decide, by decide⟩
  | not operand => exact ⟨'!', _, toList_canonical_not operand, by decide, by decide⟩
  | binary op left right ihl _ =>
    obtain ⟨c, cs, hcs, hc⟩ := ihl h.2.2.1
    exact ⟨c, _, by rw [toList_canonical_binary, hcs, List.cons_append], hc⟩

/-- **A canonical form is scanned into tokens that derive its expression**, inside any number of
parentheses and in front of any boundary. -/
theorem scans_canonical {stops : List String} (hstops : Terminators stops) {e : Expr}
    (h : e.WellFormed) (depth position : Nat) {rest : List Char} (hrest : Boundary rest) :
    ∃ ts, Derives e.level ts e ∧
      Scans stops depth depth position e.canonical.toList rest ts := by
  induction e generalizing depth position rest with
  | str s =>
    refine ⟨_, .operand (Token.operand?_string position s), ?_⟩
    rw [toList_canonical_str]
    exact Scans.inner hstops (lexes_quote s.toList rest) (.head (by decide) _)
  | number value text =>
    obtain ⟨hnumeral, rfl⟩ := h
    exact ⟨_, .operand (Token.operand?_number position text),
      Scans.inner hstops (lexes_numeral hnumeral hrest) hnumeral.inner⟩
  | bool value =>
    refine ⟨_, .operand (Token.operand?_bool position value),
      Scans.inner hstops (lexes_keyword value hrest) ?_⟩
    cases value <;> (rintro c hc; cases hc; decide)
  | var name =>
    exact ⟨_, .operand (Token.operand?_name position name),
      Scans.inner hstops (lexes_name h hrest) h.1.inner⟩
  | group inner ih =>
    have hclose : Boundary (')' :: rest) := boundary_cons (by decide)
    -- inside the parentheses nothing ends a tag, so the depth is what the scan must know
    obtain ⟨ts, hder, hscan⟩ := ih h (depth + 1) (position + ['('].length) hclose
    rw [toList_canonical_group]
    exact ⟨_, .group (Token.isSymbol_self _ _) hder.weaken (Token.isSymbol_self _ _),
      Scans.opening.append (hscan.append Scans.closing)⟩
  | not operand ih =>
    obtain ⟨hlevel, hoperand⟩ := h
    obtain ⟨ts, hder, hscan⟩ := ih hoperand depth (position + ['!'].length) hrest
    obtain ⟨c, cs, hcs, -, hc⟩ := canonical_head hoperand
    -- no `=` follows, with which the `!` would be another operator
    have hnot : Lexes .operator ['!'] (operand.canonical.toList ++ rest) :=
      lexes_single (Or.inl rfl) (by simpa [hcs] using hc)
    refine ⟨_, .not (Token.isOperator_self position _) (.loosen hlevel hder), ?_⟩
    rw [toList_canonical_not]
    exact (Scans.inner hstops hnot (.head (by decide) _)).append hscan
  | binary op left right ihl ihr =>
    obtain ⟨hleftLevel, hrightLevel, hleft, hright⟩ := h
    obtain ⟨c, cs, hcs, hblank, -⟩ := canonical_head hright
    -- the operator stands between two blanks, which end both operands
    obtain ⟨us, hder', hscan'⟩ := ihr hright depth
      (position + left.canonical.toList.length + [' '].length + op.symbol.toList.length +
        [' '].length) hrest
    have hgap : Boundary
        ([' '] ++ (op.symbol.toList ++ ([' '] ++ right.canonical.toList)) ++ rest) :=
      boundary_cons (by decide)
    obtain ⟨ts, hder, hscan⟩ := ihl hleft depth position hgap
    rw [toList_canonical_binary]
    refine ⟨_, .binary (.loosen hleftLevel hder) (Token.binaryOp?_symbol _ op)
      (.loosen hrightLevel hder'), hscan.append ((Scans.blank ?_).append
        ((Scans.inner hstops (lexes_binaryOp op _) op.inner_symbol).append
          ((Scans.blank ?_).append hscan')))⟩
    · cases op <;> (rintro d hd; cases hd; decide)
    · rintro d hd
      rw [hcs] at hd
      cases hd
      exact hblank

end Expr

/-! ## What is read is well formed -/

/-- A genuine token that is an operand by itself denotes a well-formed expression. -/
theorem Token.Genuine.wellFormed {t : Token} {e : Expr} (h : t.Genuine) (ht : t.operand? = some e) :
    e.WellFormed ∧ e.level = .primary := by
  unfold Token.operand? at ht
  split at ht <;> cases ht
  · exact ⟨trivial, rfl⟩
  · next hkind =>
    simp only [Token.Genuine, hkind] at h
    exact ⟨⟨h, rfl⟩, rfl⟩
  · exact ⟨trivial, rfl⟩
  · next hkind =>
    simp only [Token.Genuine, hkind] at h
    exact ⟨h, rfl⟩

/-- What genuine tokens derive is well formed and has the level of the derivation. -/
theorem Derives.wellFormed {k : Level} {ts : List Token} {e : Expr} (h : Derives k ts e)
    (hts : ∀ t ∈ ts, t.Genuine) : e.WellFormed ∧ e.level.rank ≤ k.rank := by
  induction h with
  | operand ht =>
    obtain ⟨hwf, hlevel⟩ := (hts _ (List.mem_singleton.mpr rfl)).wellFormed ht
    exact ⟨hwf, hlevel.symm ▸ Nat.zero_le _⟩
  | group _ _ _ ih =>
    exact ⟨(ih fun t ht => hts t (by simp [ht])).1, Nat.zero_le _⟩
  | not _ _ ih =>
    obtain ⟨hwf, hlevel⟩ := ih fun t ht => hts t (by simp [ht])
    exact ⟨⟨hlevel, hwf⟩, Nat.le_refl _⟩
  | binary _ _ _ ihl ihr =>
    obtain ⟨hl, hllevel⟩ := ihl fun t ht => hts t (by simp [ht])
    obtain ⟨hr, hrlevel⟩ := ihr fun t ht => hts t (by simp [ht])
    exact ⟨⟨hllevel, hrlevel, hl, hr⟩, Nat.le_refl _⟩
  | loosen hjk _ ih =>
    obtain ⟨hwf, hlevel⟩ := ih hts
    exact ⟨hwf, Nat.le_trans hlevel hjk⟩

/-! ## Whole texts -/

namespace Expr

/-- The tokens of a text are those of its scan, and one that marks the end. -/
theorem list_eq_ok_iff {text : String} {tokens : List Token} :
    Token.list text = .ok tokens ↔
      ∃ ts stop, scan [] 0 0 text.toList = .ok (ts, stop) ∧ tokens = ts ++ [Token.endAt stop] := by
  constructor
  · intro h
    obtain ⟨r, hlist, hresult⟩ := bind_eq_ok.mp h
    obtain ⟨⟨ts, stop⟩, hscan, hlast⟩ := bind_eq_ok.mp hlist
    cases hlast
    cases hresult
    exact ⟨ts, stop, hscan, rfl⟩
  · rintro ⟨ts, stop, hscan, rfl⟩
    exact bind_eq_ok.mpr ⟨_, bind_eq_ok.mpr ⟨(ts, stop), hscan, rfl⟩, rfl⟩

/-- Reading a text succeeds exactly with what the grammar derives from its tokens. -/
theorem parse_eq_ok_iff {text : String} {e : Expr} :
    parse text = .ok e ↔
      ∃ ts stop, scan [] 0 0 text.toList = .ok (ts, stop) ∧ Derives .disjunction ts e := by
  constructor
  · intro h
    obtain ⟨tokens, htokens, hbody⟩ := bind_eq_ok.mp h
    obtain ⟨ts, stop, hscan, rfl⟩ := list_eq_ok_iff.mp htokens
    refine ⟨ts, stop, hscan, ?_⟩
    have hgenuine : ∀ t ∈ ts, t.kind ≠ .eof := fun t ht => (genuine_of_scan hscan t ht).kind_ne_eof
    split at hbody
    · cases hbody
    obtain ⟨⟨e', rest⟩, hread, hend⟩ := bind_eq_ok.mp hbody
    have hrest : e' = e ∧ ∀ t ∈ rest.head?, t.kind = .eof := by
      cases rest with
      | nil =>
        cases hend
        exact ⟨rfl, by simp⟩
      | cons t rest =>
        simp only at hend
        split at hend
        · next hkind =>
          cases hend
          exact ⟨rfl, by simpa using hkind⟩
        · cases hend
    obtain ⟨rfl, hstop⟩ := hrest
    exact derives_of_read_to_end hgenuine rfl hread hstop
  · rintro ⟨ts, stop, hscan, hder⟩
    have hlength : ¬(ts ++ [Token.endAt stop]).length ≤ 1 := by
      simpa using hder.ne_nil
    have hread : read (ts ++ [Token.endAt stop]) (ts ++ [Token.endAt stop]) =
        .ok (e, [Token.endAt stop]) :=
      read_of_derives hder (by simp [Token.endAt, Token.binaryOp?])
    refine bind_eq_ok.mpr ⟨_, list_eq_ok_iff.mpr ⟨ts, stop, hscan, rfl⟩, ?_⟩
    rw [if_neg hlength]
    exact bind_eq_ok.mpr ⟨_, hread, rfl⟩

/-- What is read respects the levels. -/
theorem wellFormed_of_parse {text : String} {e : Expr} (h : parse text = .ok e) :
    e.WellFormed := by
  obtain ⟨ts, stop, hscan, hder⟩ := parse_eq_ok_iff.mp h
  exact (hder.wellFormed (genuine_of_scan hscan)).1

/-- The canonical form of a well-formed expression is read as that expression. -/
theorem parse_canonical {e : Expr} (h : e.WellFormed) : parse e.canonical = .ok e := by
  have hstops : Terminators [] := by decide
  -- the whole text is one canonical form with nothing behind it
  obtain ⟨ts, hder, hscan⟩ := scans_canonical hstops h 0 0 boundary_nil
  rw [Scans, List.append_nil, scan_nil] at hscan
  exact parse_eq_ok_iff.mpr ⟨_, _, hscan, (List.append_nil ts).symm ▸ hder.weaken⟩

/-- **Reading and writing expressions are inverse.** Every expression that respects the levels of
the grammar is read back from its canonical form; and whatever any text is read as respects them,
and so is read back too. -/
theorem round_trip :
    (∀ e : Expr, e.WellFormed → parse e.canonical = .ok e) ∧
      ∀ text e, parse text = .ok e → e.WellFormed ∧ parse e.canonical = .ok e := by
  constructor
  · intro e he
    exact parse_canonical he
  · intro text e h
    have hwf : e.WellFormed := wellFormed_of_parse h
    exact ⟨hwf, parse_canonical hwf⟩

/-- A negated comparison whose left operand is a sum with a brace and a quote in it, as the left
operand of a conjunction. -/
theorem round_trip_negated_comparison :
    let e := binary .and (not (binary .eq (binary .add (var "x") (str "\"\x7d\n"))
      (number (numeralValue "1.5") "1.5"))) (group (bool true))
    parse "!x + \"\\\"\x7d\\n\" == 1.5 && (true)" = .ok e ∧ e.WellFormed := by
  intro e
  have hname : IsName "x".toList := by decide
  have hnumeral : IsNumeral "1.5".toList :=
    @IsNumeral.fraction '1' '5' [] [] (List.all_eq_true.mp rfl) (List.all_eq_true.mp rfl)
  have hsum : (binary .add (var "x") (str "\"\x7d\n")).WellFormed :=
    ⟨by decide, by decide, hname, trivial⟩
  have hcomparison : (binary .eq (binary .add (var "x") (str "\"\x7d\n"))
      (number (numeralValue "1.5") "1.5")).WellFormed :=
    ⟨by decide, by decide, hsum, hnumeral, rfl⟩
  have hread : parse e.canonical = .ok e :=
    round_trip.1 e ⟨by decide, by decide, ⟨by decide, hcomparison⟩, trivial⟩
  exact ⟨hread, (round_trip.2 _ e hread).1⟩

end Expr

end Stencil

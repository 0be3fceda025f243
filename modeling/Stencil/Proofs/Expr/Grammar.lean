import Stencil.Expr.Parser

/-!
# The grammar of expressions

Expressions have six levels, from the primary ones, which hold together by themselves, to
disjunctions. Each binary operator makes an expression of its level out of operands of given
levels; the levels of the left operands make `+`, `&&` and `||` group to the left, and leave a
comparison with no operand that is a comparison. An expression of a level is also one of every
looser level.

The reading machine and the grammar determine the same expressions: what the grammar derives from
tokens the machine reads from them, and what the machine reads the grammar derives from the tokens
that were taken.

## Main definitions

* `Level` is the type of levels.
* `Derives k ts e` says that the tokens `ts` derive the expression `e` of level `k`.
* `Opened stack ts` says what it means that `stack` is pending behind the tokens `ts`.

## Main results

* `read_of_derives`: the machine reads what the grammar derives.
* `derives_of_read`: the grammar derives what the machine reads.
* `derives_of_read_to_end`: it derives it from all tokens where only the end is left.
-/

namespace Stencil

/-- The levels of expressions, the tightest first. -/
inductive Level
  /-- Literals, variables and groups. -/
  | primary
  /-- Sums. -/
  | additive
  /-- Comparisons. -/
  | equality
  | negation
  | conjunction
  | disjunction
  deriving Repr, DecidableEq

/-- The place of a level, counted from the tightest. -/
def Level.rank : Level → Nat
  | primary => 0
  | additive => 1
  | equality => 2
  | negation => 3
  | conjunction => 4
  | disjunction => 5

namespace BinaryOp

/-- The level of an operation. -/
def result : BinaryOp → Level
  | add => .additive
  | eq => .equality
  | ne => .equality
  | and => .conjunction
  | or => .disjunction

/-- The level of the left operand: the operation's own where operations group to the left. -/
def leftLevel : BinaryOp → Level
  | add => .additive
  | eq => .additive
  | ne => .additive
  | and => .conjunction
  | or => .disjunction

/-- The level of the right operand. -/
def rightLevel : BinaryOp → Level
  | add => .primary
  | eq => .additive
  | ne => .additive
  | and => .negation
  | or => .conjunction

end BinaryOp

/-- The tokens derive the expression at the level. -/
inductive Derives : Level → List Token → Expr → Prop
  /-- A literal or a variable. -/
  | operand {t : Token} {e : Expr} (ht : t.operand? = some e) : Derives .primary [t] e
  /-- An expression of any level in parentheses. -/
  | group {l r : Token} {ts : List Token} {e : Expr} (hl : l.isSymbol "(" = true)
      (h : Derives .disjunction ts e) (hr : r.isSymbol ")" = true) :
      Derives .primary (l :: (ts ++ [r])) (.group e)
  | not {t : Token} {ts : List Token} {e : Expr} (ht : t.isOperator "!" = true)
      (h : Derives .negation ts e) : Derives .negation (t :: ts) (.not e)
  | binary {op : BinaryOp} {t : Token} {ts us : List Token} {l r : Expr}
      (hl : Derives op.leftLevel ts l) (ht : t.binaryOp? = some op)
      (hr : Derives op.rightLevel us r) : Derives op.result (ts ++ t :: us) (.binary op l r)
  /-- An expression of a level is one of every looser level. -/
  | loosen {j k : Level} {ts : List Token} {e : Expr} (hjk : j.rank ≤ k.rank)
      (h : Derives j ts e) : Derives k ts e

theorem Derives.ne_nil {k : Level} {ts : List Token} {e : Expr} (h : Derives k ts e) :
    ts ≠ [] := by
  induction h with
  | loosen _ _ ih => exact ih
  | _ => simp

theorem Derives.weaken {k : Level} {ts : List Token} {e : Expr} (h : Derives k ts e) :
    Derives .disjunction ts e :=
  .loosen (by cases k <;> decide) h

/-! ## Each token plays one part -/

namespace Token

variable {t : Token} {op : BinaryOp} {e : Expr} {sign : String}

theorem kind_of_isSymbol (h : t.isSymbol sign = true) : t.kind = .symbol := by
  simp only [isSymbol, Bool.and_eq_true, decide_eq_true_eq] at h
  exact h.1

theorem kind_of_isOperator (h : t.isOperator sign = true) : t.kind = .operator := by
  simp only [isOperator, Bool.and_eq_true, decide_eq_true_eq] at h
  exact h.1

theorem kind_of_binaryOp? (h : t.binaryOp? = some op) : t.kind = .operator := by
  unfold binaryOp? at h
  split at h
  · assumption
  · cases h

theorem operand?_of_symbol (h : t.kind = .symbol) : t.operand? = none := by
  simp [operand?, h]

theorem operand?_of_operator (h : t.kind = .operator) : t.operand? = none := by
  simp [operand?, h]

theorem isSymbol_of_operator (h : t.kind = .operator) : t.isSymbol sign = false := by
  simp [isSymbol, h]

theorem binaryOp?_of_symbol (h : t.kind = .symbol) : t.binaryOp? = none := by
  simp [binaryOp?, h]

end Token

/-- No expression takes the token that marks the end. -/
theorem Derives.kind_ne_eof {k : Level} {ts : List Token} {e : Expr} (h : Derives k ts e) :
    ∀ t ∈ ts, t.kind ≠ .eof := by
  induction h with
  | @operand t e ht =>
    intro u hu heof
    obtain rfl := List.mem_singleton.mp hu
    simp [Token.operand?, heof] at ht
  | @group l r ts e hl _ hr ih =>
    have hl' := Token.kind_of_isSymbol hl
    have hr' := Token.kind_of_isSymbol hr
    intro u hu
    simp only [List.mem_cons, List.mem_append, List.not_mem_nil, or_false] at hu
    rcases hu with rfl | hu | rfl
    · simp [hl']
    · exact ih u hu
    · simp [hr']
  | @not t ts e ht _ ih =>
    have ht' := Token.kind_of_isOperator ht
    intro u hu
    rcases List.mem_cons.mp hu with rfl | hu
    · simp [ht']
    · exact ih u hu
  | @binary op t ts us l r _ ht _ ihl ihr =>
    have ht' := Token.kind_of_binaryOp? ht
    intro u hu
    simp only [List.mem_append, List.mem_cons] at hu
    rcases hu with hu | rfl | hu
    · exact ihl u hu
    · simp [ht']
    · exact ihr u hu
  | loosen _ _ ih => exact ih

/-! ## What is pending to the left -/

/-- The least level of something pending that may stand right before an operand of a level. -/
def Level.bound : Level → Nat
  | primary => 0
  | additive => 1
  | equality => 2
  | negation => 2
  | conjunction => 4
  | disjunction => 5

/-- An operand of the level may be read behind what is pending: it is held loosely enough. -/
def Admits (k : Level) (stack : List Pending) : Prop := ∀ p ∈ stack.head?, k.bound ≤ p.level

theorem Admits.tighten {j k : Level} {stack : List Pending} (hjk : j.rank ≤ k.rank)
    (h : Admits k stack) : Admits j stack := by
  intro p hp
  have hbound : j.bound ≤ k.bound := by
    cases j <;> cases k <;> simp [Level.rank, Level.bound] at hjk ⊢
  exact Nat.le_trans hbound (h p hp)

namespace BinaryOp

variable (op : BinaryOp)

/-- An operator closes on its left exactly what may stand in its left operand. -/
theorem rank_leftLevel : op.leftLevel.rank = op.closes + 1 := by
  cases op <;> rfl

theorem rank_leftLevel_le : op.leftLevel.rank ≤ op.result.rank := by
  cases op <;> decide

theorem rank_rightLevel_le : op.rightLevel.rank ≤ op.result.rank := by
  cases op <;> decide

theorem closes_lt_bound : op.closes < op.result.bound := by
  cases op <;> decide

/-- While an operation is pending, its right operand may be read. -/
theorem bound_rightLevel_le : op.rightLevel.bound ≤ op.level := by
  cases op <;> decide

theorem rank_result : op.result.rank = op.level + 1 := by
  cases op <;> rfl

/-- What a pending operation admits is a right operand of it. -/
theorem rank_le_rightLevel {k : Level} (h : k.bound ≤ op.level) : k.rank ≤ op.rightLevel.rank := by
  cases op <;> cases k <;> first | decide | exact absurd h (by decide)

end BinaryOp

/-- The expression that the pending operations make of an operand. -/
def closeAll (e : Expr) (stack : List Pending) : Expr := stack.foldl (fun e p => p.close e) e

/-- Settling closes what binds tightly enough. -/
theorem settle_append {level : Nat} {e : Expr} {closed stack : List Pending}
    (h : ∀ p ∈ closed, p.level ≤ level) :
    settle level e (closed ++ stack) = settle level (closeAll e closed) stack := by
  induction closed generalizing e with
  | nil => rfl
  | cons p closed ih =>
    rw [List.cons_append, settle, if_pos (h p List.mem_cons_self)]
    exact ih fun q hq => h q (List.mem_cons_of_mem p hq)

/-- Settling stops where something binds too loosely. -/
theorem settle_of_lt {level : Nat} {e : Expr} {stack : List Pending}
    (h : ∀ p ∈ stack.head?, level < p.level) : settle level e stack = (e, stack) := by
  cases stack with
  | nil => rfl
  | cons p stack =>
    rw [settle, if_neg]
    exact Nat.not_le.mpr (h p rfl)

/-! ## The machine reads what the grammar derives -/

/-- Behind the tokens of an expression the machine stands at its last operand, with operations
pending that make the expression of it and bind tighter than its level. -/
theorem readOperand_of_derives (last : Nat) {k : Level} {ts : List Token} {e : Expr}
    (h : Derives k ts e) (stack : List Pending) (rest : List Token) (hstack : Admits k stack) :
    ∃ e₀ closed, readOperand last stack (ts ++ rest) = readOperator last e₀ (closed ++ stack) rest ∧
      (∀ p ∈ closed, p.level < k.rank) ∧ closeAll e₀ closed = e := by
  -- on the derivation: operands stand behind more that is pending, and in front of more tokens
  induction h generalizing stack rest with
  | @operand t e ht =>
    refine ⟨e, [], ?_, by simp, rfl⟩
    rw [List.singleton_append, readOperand, ht]
    rfl
  | @group l r ts e hl _ hr ih =>
    have hsym := Token.kind_of_isSymbol hl
    obtain ⟨e₀, closed, hread, hlevel, hclose⟩ :=
      ih (.group :: stack) (r :: rest) (by simp [Admits, Level.bound, Pending.level])
    refine ⟨.group e, [], ?_, by simp, rfl⟩
    -- the closing parenthesis closes all that the group has left pending, down to its opening
    have hsettle : settle 4 e₀ (closed ++ .group :: stack) = (e, .group :: stack) := by
      rw [settle_append fun p hp => Nat.le_of_lt_succ (hlevel p hp), hclose]
      exact settle_of_lt (by simp [Pending.level])
    rw [List.cons_append, List.append_assoc, List.singleton_append, readOperand,
      Token.operand?_of_symbol hsym]
    simp only [hl, if_true]
    rw [hread, readOperator, Token.binaryOp?_of_symbol (Token.kind_of_isSymbol hr)]
    simp only [hr, if_true, hsettle]
    rfl
  | @not t ts e ht _ ih =>
    have hop := Token.kind_of_isOperator ht
    have hadmits : admitsNegation stack = true := by
      -- neither a sum nor a comparison waits for its right operand
      rcases stack with _ | ⟨(_ | _ | ⟨_ | _ | _ | _ | _, l⟩), stack⟩ <;>
        first
        | rfl
        | simp [Admits, Level.bound, Pending.level, BinaryOp.level] at hstack
    obtain ⟨e₀, closed, hread, hlevel, hclose⟩ :=
      ih (.negation :: stack) rest (by simp [Admits, Level.bound, Pending.level])
    refine ⟨e₀, closed ++ [.negation], ?_, ?_, ?_⟩
    · rw [List.cons_append, readOperand, Token.operand?_of_operator hop]
      simp only [Token.isSymbol_of_operator hop, ht, hadmits]
      simpa using hread
    · intro p hp
      rcases List.mem_append.mp hp with hp | hp
      · exact hlevel p hp
      · obtain rfl := List.mem_singleton.mp hp
        decide
    · rw [closeAll, List.foldl_append]
      exact congrArg Expr.not hclose
  | @binary op t ts us l r _ ht _ ihl ihr =>
    have hleft : Admits op.leftLevel stack := hstack.tighten op.rank_leftLevel_le
    obtain ⟨e₀, closed, hread, hlevel, hclose⟩ := ihl stack (t :: (us ++ rest)) hleft
    -- the operator closes what its left operand has left pending, and nothing below that
    have hsettle : settle op.closes e₀ (closed ++ stack) = (l, stack) := by
      rw [op.rank_leftLevel] at hlevel
      rw [settle_append fun p hp => Nat.le_of_lt_succ (hlevel p hp), hclose]
      exact settle_of_lt fun p hp => Nat.lt_of_lt_of_le op.closes_lt_bound (hstack p hp)
    have hoperand : readOperator last e₀ (closed ++ stack) (t :: (us ++ rest)) =
        readOperand last (.operation op l :: stack) (us ++ rest) := by
      rw [readOperator, ht]
      simp only [hsettle]
      cases stack with
      | nil => rfl
      | cons p below =>
        have hchain : (p.isComparison && op.level = 1) = false := by
          -- a comparison cannot be the left operand of a comparison
          have hp := hstack p rfl
          rcases p with _ | _ | ⟨_ | _ | _ | _ | _, left⟩ <;> cases op <;>
            first
            | rfl
            | simp [BinaryOp.result, Level.bound, Pending.level, BinaryOp.level] at hp
        simp only [hchain]
        rfl
    obtain ⟨e₁, closed', hread', hlevel', hclose'⟩ := ihr (.operation op l :: stack) rest (by
      intro p hp
      obtain rfl : Pending.operation op l = p := by simpa using hp
      exact op.bound_rightLevel_le)
    refine ⟨e₁, closed' ++ [.operation op l], ?_, ?_, ?_⟩
    · rw [List.append_assoc, List.cons_append, hread, hoperand, hread', List.append_assoc,
        List.singleton_append]
    · intro p hp
      rcases List.mem_append.mp hp with hp | hp
      · exact Nat.lt_of_lt_of_le (hlevel' p hp) op.rank_rightLevel_le
      · obtain rfl := List.mem_singleton.mp hp
        exact op.rank_result ▸ Nat.lt_succ_self op.level
    · rw [closeAll, List.foldl_append]
      exact congrArg (Expr.binary op l) hclose'
  | loosen hjk _ ih =>
    obtain ⟨e₀, closed, hread, hlevel, hclose⟩ := ih stack rest (hstack.tighten hjk)
    exact ⟨e₀, closed, hread, fun p hp => Nat.lt_of_lt_of_le (hlevel p hp) hjk, hclose⟩

/-- **The machine reads what the grammar derives**, up to a token that is no binary operator. -/
theorem read_of_derives {all ts rest : List Token} {e : Expr} (h : Derives .disjunction ts e)
    (hrest : ∀ t ∈ rest.head?, t.binaryOp? = none) :
    Expr.read all (ts ++ rest) = .ok (e, rest) := by
  unfold Expr.read
  generalize (all.getLast?.map (·.position)).getD 0 = last
  obtain ⟨e₀, closed, hread, hlevel, hclose⟩ :=
    readOperand_of_derives last h [] rest (by simp [Admits])
  have hsettle : settle 4 e₀ (closed ++ []) = (e, []) := by
    rw [settle_append fun p hp => Nat.le_of_lt_succ (hlevel p hp), hclose]
    rfl
  have hfinish : ∀ next, finish e₀ (closed ++ []) next rest = .ok (e, rest) := by
    intro next
    rw [finish, hsettle]
  rw [hread]
  cases rest with
  | nil => exact hfinish last
  | cons t rest =>
    rw [readOperator, hrest t rfl]
    simp only [hsettle, hfinish, ite_self]

/-! ## The grammar derives what the machine reads -/

/-- What it means that something is pending behind some tokens: these tokens are the parentheses
and negations, and the left operands with their operators, from the outermost to the innermost. -/
inductive Opened : List Pending → List Token → Prop
  | nil : Opened [] []
  | group {t : Token} {stack : List Pending} {ts : List Token} (h : Opened stack ts)
      (ht : t.isSymbol "(" = true) : Opened (.group :: stack) (ts ++ [t])
  | negation {t : Token} {stack : List Pending} {ts : List Token} (h : Opened stack ts)
      (hstack : Admits .negation stack) (ht : t.isOperator "!" = true) :
      Opened (.negation :: stack) (ts ++ [t])
  | operation {op : BinaryOp} {l : Expr} {t : Token} {stack : List Pending} {ts us : List Token}
      (h : Opened stack ts) (hstack : Admits op.result stack) (hl : Derives op.leftLevel us l)
      (ht : t.binaryOp? = some op) : Opened (.operation op l :: stack) (ts ++ (us ++ [t]))

theorem admits_negation {stack : List Pending} (h : admitsNegation stack = true) :
    Admits .negation stack := by
  rcases stack with _ | ⟨(_ | _ | ⟨_ | _ | _ | _ | _, l⟩), stack⟩ <;>
    simp_all [admitsNegation, Pending.isComparison, Admits, Level.bound, Pending.level,
      BinaryOp.level]

/-- What an operator leaves pending admits the operation, unless both are comparisons. -/
theorem Pending.bound_result_le {op : BinaryOp} (p : Pending) (hlevel : op.closes < p.level)
    (hchain : (p.isComparison && op.level = 1) = false) : op.result.bound ≤ p.level := by
  rcases p with _ | _ | ⟨_ | _ | _ | _ | _, l⟩ <;> cases op <;>
    simp_all [level, isComparison, BinaryOp.level, BinaryOp.closes, BinaryOp.result, Level.bound]

/-- Settling closes operations by the rules of the grammar, and what it leaves pending admits what
it makes. -/
theorem settle_derives (level : Nat) (hlevel : level < 5) {stack : List Pending}
    {ts : List Token} (hopen : Opened stack ts) :
    ∀ {k us e}, Admits k stack → Derives k us e →
      ∃ ts' us' k', Opened (settle level e stack).2 ts' ∧ ts ++ us = ts' ++ us' ∧
        Derives k' us' (settle level e stack).1 ∧ Admits k' (settle level e stack).2 ∧
        k'.rank ≤ max k.rank (level + 1) ∧
        ∀ p ∈ (settle level e stack).2.head?, level < p.level := by
  -- on what is pending, from the innermost: settling closes it, or stops there
  induction hopen with
  | nil =>
    intro k us e hk he
    exact ⟨[], us, k, .nil, rfl, he, hk, Nat.le_max_left _ _, by simp [settle]⟩
  | @group t stack ts h ht _ =>
    intro k us e hk he
    have hstop : ∀ p ∈ (Pending.group :: stack).head?, level < p.level := by
      simpa [Pending.level] using hlevel
    rw [settle_of_lt hstop]
    exact ⟨ts ++ [t], us, k, .group h ht, rfl, he, hk, Nat.le_max_left _ _, hstop⟩
  | @negation t stack ts h hstack ht ih =>
    intro k us e hk he
    -- a negation that is closed becomes the operand of what is pending below it
    by_cases hclosed : Pending.negation.level ≤ level
    · have hoperand : k.rank ≤ Level.negation.rank := by
        have hbound : k.bound ≤ 2 := hk _ rfl
        cases k <;> first | decide | exact absurd hbound (by decide)
      rw [settle, if_pos hclosed]
      obtain ⟨ts', us', k', hopen, htokens, hder, hadm, hrank, hhead⟩ :=
        ih hstack (.not ht (.loosen hoperand he))
      refine ⟨ts', us', k', hopen, by rw [← htokens]; simp, hder, hadm, ?_, hhead⟩
      have hneg : Level.negation.rank ≤ level + 1 := Nat.succ_le_succ hclosed
      omega
    · have hstop : ∀ p ∈ (Pending.negation :: stack).head?, level < p.level := by
        simpa using Nat.lt_of_not_le hclosed
      rw [settle_of_lt hstop]
      exact ⟨_, us, k, .negation h hstack ht, rfl, he, hk, Nat.le_max_left _ _, hstop⟩
  | @operation op l t stack ts vs h hstack hl ht ih =>
    intro k us e hk he
    by_cases hclosed : (Pending.operation op l).level ≤ level
    · have hoperand : k.rank ≤ op.rightLevel.rank := op.rank_le_rightLevel (hk _ rfl)
      rw [settle, if_pos hclosed]
      obtain ⟨ts', us', k', hopen, htokens, hder, hadm, hrank, hhead⟩ :=
        ih hstack (.binary hl ht (.loosen hoperand he))
      refine ⟨ts', us', k', hopen, by rw [← htokens]; simp, hder, hadm, ?_, hhead⟩
      have hresult : op.result.rank ≤ level + 1 := op.rank_result ▸ Nat.succ_le_succ hclosed
      omega
    · have hstop : ∀ p ∈ (Pending.operation op l :: stack).head?, level < p.level := by
        simpa using Nat.lt_of_not_le hclosed
      rw [settle_of_lt hstop]
      exact ⟨_, us, k, .operation h hstack hl ht, rfl, he, hk, Nat.le_max_left _ _, hstop⟩

section

variable {stack : List Pending} {ts us rest rest' : List Token} {e e' : Expr}

theorem admits_primary (stack : List Pending) : Admits .primary stack := fun _ _ => Nat.zero_le _

/-- Ending the reading makes one expression of all that was pending. -/
theorem derives_of_finish {next : Nat} (hopen : Opened stack us) (he : Derives .primary ts e)
    (h : finish e stack next rest = .ok (e', rest')) :
    rest' = rest ∧ Derives .disjunction (us ++ ts) e' := by
  refine ⟨finish_rest h, ?_⟩
  obtain ⟨us', ts', k, hopen', htokens, hder, -⟩ :=
    settle_derives 4 (by decide) hopen (admits_primary stack) he
  unfold finish at h
  split at h
  · next closed heq =>
    cases h
    rw [heq] at hopen' hder
    cases hopen'
    rw [htokens]
    exact hder.weaken
  · cases h

/-- A closing parenthesis closes the innermost open one around all that is pending behind it. -/
theorem derives_of_close {t : Token} (hopen : Opened stack us) (he : Derives .primary ts e)
    (ht : t.isSymbol ")" = true) (h : settle 4 e stack = (e', .group :: stack')) :
    ∃ us' ts', Opened stack' us' ∧ us ++ ts ++ [t] = us' ++ ts' ∧
      Derives .primary ts' (.group e') := by
  obtain ⟨us', ts', k, hopen', htokens, hder, -⟩ :=
    settle_derives 4 (by decide) hopen (admits_primary stack) he
  rw [h] at hopen' hder
  cases hopen' with
  | @group l _ us' hbelow hl =>
    exact ⟨us', l :: (ts' ++ [t]), hbelow, by simp [htokens], .group hl hder.weaken ht⟩

/-- A binary operator takes as its left operand all that binds at least as tightly. -/
theorem opened_of_operator {op : BinaryOp} {t : Token} (hopen : Opened stack us)
    (he : Derives .primary ts e) (ht : t.binaryOp? = some op)
    (h : settle op.closes e stack = (e', stack'))
    (hchain : ∀ p ∈ stack'.head?, (p.isComparison && op.level = 1) = false) :
    Opened (.operation op e' :: stack') (us ++ ts ++ [t]) := by
  obtain ⟨us', ts', k, hopen', htokens, hder, -, hrank, hhead⟩ :=
    settle_derives op.closes (by cases op <;> decide) hopen (admits_primary stack) he
  rw [h] at hopen' hder hhead
  have hleft : k.rank ≤ op.leftLevel.rank := by
    rw [op.rank_leftLevel]
    exact Nat.le_trans hrank (Nat.max_le.mpr ⟨Nat.zero_le _, Nat.le_refl _⟩)
  have hadmits : Admits op.result stack' := fun p hp =>
    p.bound_result_le (hhead p hp) (hchain p hp)
  rw [htokens, List.append_assoc]
  exact .operation hopen' hadmits (.loosen hleft hder) ht

end

/-- What the machine reads is derived from the tokens of what was pending and those it takes. -/
theorem derives_of_readOperand (last : Nat) (ts : List Token) :
    (∀ stack us e rest, Opened stack us → readOperand last stack ts = .ok (e, rest) →
      ∃ vs, ts = vs ++ rest ∧ Derives .disjunction (us ++ vs) e) ∧
    ∀ stack us ws e₀ e rest, Opened stack us → Derives .primary ws e₀ →
      readOperator last e₀ stack ts = .ok (e, rest) →
      ∃ vs, ts = vs ++ rest ∧ Derives .disjunction (us ++ ws ++ vs) e := by
  -- both parts of the machine at once: each goes on with the other one token later
  induction ts with
  | nil =>
    constructor
    · intro stack us e rest _ h
      simp [readOperand] at h
    · intro stack us ws e₀ e rest hopen he h
      rw [readOperator] at h
      obtain ⟨rfl, hder⟩ := derives_of_finish hopen he h
      exact ⟨[], rfl, by simpa using hder⟩
  | cons t ts ih =>
    obtain ⟨ihOperand, ihOperator⟩ := ih
    constructor
    · intro stack us e rest hopen h
      rw [readOperand] at h
      split at h
      · next e₀ ht =>
        obtain ⟨vs, rfl, hder⟩ := ihOperator _ _ _ _ _ _ hopen (.operand ht) h
        exact ⟨t :: vs, rfl, by simpa using hder⟩
      split at h
      · next ht =>
        obtain ⟨vs, rfl, hder⟩ := ihOperand _ _ _ _ (.group hopen ht) h
        exact ⟨t :: vs, rfl, by simpa using hder⟩
      split at h
      · next ht =>
        obtain ⟨hsign, hadmits⟩ := Bool.and_eq_true_iff.mp ht
        obtain ⟨vs, rfl, hder⟩ :=
          ihOperand _ _ _ _ (.negation hopen (admits_negation hadmits) hsign) h
        exact ⟨t :: vs, rfl, by simpa using hder⟩
      split at h <;> cases h
    · intro stack us ws e₀ e rest hopen he h
      -- an operand is followed by the end, by an operator, or by a closing parenthesis
      have hend : ∀ {next : Nat}, finish e₀ stack next (t :: ts) = .ok (e, rest) →
          ∃ vs, t :: ts = vs ++ rest ∧ Derives .disjunction (us ++ ws ++ vs) e := by
        intro next hfinish
        obtain ⟨rfl, hder⟩ := derives_of_finish hopen he hfinish
        exact ⟨[], rfl, by simpa using hder⟩
      have hnext : ∀ {op left below}, Opened (.operation op left :: below) (us ++ ws ++ [t]) →
          readOperand last (.operation op left :: below) ts = .ok (e, rest) →
          ∃ vs, t :: ts = vs ++ rest ∧ Derives .disjunction (us ++ ws ++ vs) e := by
        intro op left below hpending hread
        obtain ⟨vs, rfl, hder⟩ := ihOperand _ _ _ _ hpending hread
        exact ⟨t :: vs, rfl, by simpa using hder⟩
      rw [readOperator] at h
      split at h
      · next op ht =>
        split at h
        · next left p below hsettle =>
          split at h
          · exact hend h
          · next hchain =>
            exact hnext (opened_of_operator hopen he ht hsettle (by simpa using hchain)) h
        · next left hsettle =>
          exact hnext (opened_of_operator hopen he ht hsettle (by simp)) h
      · split at h
        · next ht =>
          split at h
          · next inner below hsettle =>
            obtain ⟨us', ts', hbelow, htokens, hgroup⟩ := derives_of_close hopen he ht hsettle
            obtain ⟨vs, rfl, hder⟩ := ihOperator _ _ _ _ _ _ hbelow hgroup h
            refine ⟨t :: vs, rfl, ?_⟩
            rw [← htokens] at hder
            simpa using hder
          · exact hend h
        · exact hend h

/-- **The grammar derives what the machine reads**, from the tokens that were taken. -/
theorem derives_of_read {all ts rest : List Token} {e : Expr}
    (h : Expr.read all ts = .ok (e, rest)) : ∃ us, ts = us ++ rest ∧ Derives .disjunction us e :=
  (derives_of_readOperand _ ts).1 [] [] e rest .nil h

/-- In front of the end, reading takes what it derives an expression from and leaves the rest. -/
theorem derives_of_read_before_end {all ts rest : List Token} {e : Expr} {stop : Token}
    (hstop : stop.kind = .eof) (h : Expr.read all (ts ++ [stop]) = .ok (e, rest)) :
    ∃ us vs, ts = us ++ vs ∧ rest = vs ++ [stop] ∧ Derives .disjunction us e := by
  obtain ⟨us, hus, hder⟩ := derives_of_read h
  -- the end cannot be among the tokens taken, so they all stand before it
  rcases List.append_eq_append_iff.mp hus with ⟨vs, rfl, hvs⟩ | ⟨vs, rfl, rfl⟩
  · cases vs with
    | nil => exact ⟨ts, [], by simp, by simpa using hvs.symm, by simpa using hder⟩
    | cons v vs =>
      obtain ⟨rfl, -⟩ := List.cons.inj hvs
      exact absurd hstop (hder.kind_ne_eof _ (by simp))
  · exact ⟨us, vs, rfl, rfl, hder⟩

/-- Where reading leaves nothing but the end, all tokens before the end were taken. -/
theorem derives_of_read_to_end {all ts rest : List Token} {e : Expr} {stop : Token}
    (hts : ∀ t ∈ ts, t.kind ≠ .eof) (hstop : stop.kind = .eof)
    (h : Expr.read all (ts ++ [stop]) = .ok (e, rest))
    (hrest : ∀ t ∈ rest.head?, t.kind = .eof) : Derives .disjunction ts e := by
  obtain ⟨us, vs, rfl, rfl, hder⟩ := derives_of_read_before_end hstop h
  cases vs with
  | nil => rwa [List.append_nil]
  | cons v vs => exact absurd (hrest v (by simp)) (hts v (by simp))

end Stencil

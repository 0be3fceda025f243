import Stencil.Expr
import Stencil.Expr.Token

/-!
# From tokens to expressions

Expressions are read by a machine that goes once through the tokens and keeps, innermost first,
what is still open to the left: parentheses, negations, and operators that wait for their right
operand. Operators bind in the order `+`, then `==` and `!=`, then `!`, then `&&`, then `||`; those
of equal strength group to the left, except that a comparison is never an operand of a comparison.

Reading stops at the first token that cannot go on with the expression; whether that token may
stand there is the caller's question.

## Main definitions

* `Pending` is something open to the left of the place where the machine reads.
* `readOperand` and `readOperator` are the two states of the machine.
* `Expr.read` reads one expression from a list of tokens, `Expr.parse` a whole text.

## Main results

* `Expr.read_rest_length`: an expression takes at least one token.
-/

namespace Stencil

/-! ## What tokens mean in an expression -/

/-- The value of a numeral: exact, and with its digits kept when it has a point. -/
def numeralValue (text : String) : Number :=
  let cs := text.toList
  let whole := cs.takeWhile (· ≠ '.')
  match cs.dropWhile (· ≠ '.') with
  | [] => .int (natOfDigits whole)
  | _ :: fraction =>
    .decimal (.finite false (natOfDigits (whole ++ fraction)) (-(fraction.length : Int)))

namespace Token

/-- A token is the given operator. -/
def isOperator (t : Token) (sign : String) : Bool :=
  t.kind = .operator && t.text = sign

/-- A token is the given parenthesis. -/
def isSymbol (t : Token) (sign : String) : Bool :=
  t.kind = .symbol && t.text = sign

/-- The expression that a token denotes by itself. -/
def operand? (t : Token) : Option Expr :=
  match t.kind with
  | .string => some (.str (unquote (String.ofList (t.text.toList.drop 1).dropLast)))
  | .number => some (.number (numeralValue t.text) t.text)
  | .keyword => some (.bool (t.text = "true"))
  | .identifier => some (.var t.text)
  | _ => none

/-- The binary operator that a token is. -/
def binaryOp? (t : Token) : Option BinaryOp :=
  if t.kind = .operator then
    [BinaryOp.add, .eq, .ne, .and, .or].find? fun op => op.symbol = t.text
  else none

end Token

/-! ## The machine -/

/-- How loosely an operator binds; the level between comparisons and `&&` is that of `!`. -/
def BinaryOp.level : BinaryOp → Nat
  | add => 0
  | eq => 1
  | ne => 1
  | and => 3
  | or => 4

/-- The levels that an operator on the right closes before it takes its left operand: its own, but
for comparisons, which do not group. -/
def BinaryOp.closes : BinaryOp → Nat
  | add => 0
  | eq => 0
  | ne => 0
  | and => 3
  | or => 4

/-- Something open to the left of an operand. -/
inductive Pending
  /-- An open parenthesis. -/
  | group
  /-- A negation of the operand. -/
  | negation
  /-- An operation with its left operand. -/
  | operation (op : BinaryOp) (left : Expr)
  deriving Repr, DecidableEq

namespace Pending

/-- How loosely it holds the operand on its right; a parenthesis holds it loosest. -/
def level : Pending → Nat
  | group => 5
  | negation => 2
  | operation op _ => op.level

/-- The expression it makes of the operand on its right. -/
def close : Pending → Expr → Expr
  | group, e => .group e
  | negation, e => .not e
  | operation op left, e => .binary op left e

/-- A pending comparison. -/
def isComparison : Pending → Bool
  | operation .eq _ => true
  | operation .ne _ => true
  | _ => false

end Pending

/-- Closes everything pending that binds at most as loosely as `level` around the operand. -/
def settle (level : Nat) (e : Expr) : List Pending → Expr × List Pending
  | [] => (e, [])
  | p :: stack =>
    if p.level ≤ level then settle level (p.close e) stack else (e, p :: stack)

/-- A negation may begin where no sum and no comparison waits for its right operand. -/
def admitsNegation : List Pending → Bool
  | .operation .add _ :: _ => false
  | p :: _ => !p.isComparison
  | [] => true

/-- Ends the reading before `rest`: nothing but operators may be pending. -/
def finish (e : Expr) (stack : List Pending) (next : Nat) (rest : List Token) :
    Except ExprError (Expr × List Token) :=
  match settle 4 e stack with
  | (e, []) => .ok (e, rest)
  | _ => .error (.unclosedGroup next)

mutual

/-- Reads from a place where an operand is due. The position `last` is reported when the tokens
end. -/
def readOperand (last : Nat) (stack : List Pending) :
    List Token → Except ExprError (Expr × List Token)
  | [] => .error (.unexpectedEnd last)
  | t :: ts =>
    match t.operand? with
    | some e => readOperator last e stack ts
    | none =>
      if t.isSymbol "(" then readOperand last (.group :: stack) ts
      else if t.isOperator "!" && admitsNegation stack then
        readOperand last (.negation :: stack) ts
      else if t.kind = .eof then .error (.unexpectedEnd t.position)
      else .error (.unexpectedToken t.text t.position)

/-- Reads from the place behind the operand `e`. -/
def readOperator (last : Nat) (e : Expr) (stack : List Pending) :
    List Token → Except ExprError (Expr × List Token)
  | [] => finish e stack last []
  | t :: ts =>
    match t.binaryOp? with
    | some op =>
      match settle op.closes e stack with
      | (left, p :: below) =>
        if p.isComparison && op.level = 1 then finish e stack t.position (t :: ts)
        else readOperand last (.operation op left :: p :: below) ts
      | (left, []) => readOperand last [.operation op left] ts
    | none =>
      if t.isSymbol ")" then
        match settle 4 e stack with
        | (inner, .group :: below) => readOperator last (.group inner) below ts
        | _ => finish e stack t.position (t :: ts)
      else finish e stack t.position (t :: ts)

end

/-- Whatever ends the reading, no token is lost there. -/
theorem finish_rest {e e' : Expr} {stack : List Pending} {next : Nat} {rest rest' : List Token}
    (h : finish e stack next rest = .ok (e', rest')) : rest' = rest := by
  unfold finish at h
  split at h <;> cases h
  rfl

/-- An operand takes at least one token, and what follows an operand may take none. -/
theorem read_length (last : Nat) (ts : List Token) :
    (∀ stack e rest, readOperand last stack ts = .ok (e, rest) → rest.length < ts.length) ∧
      (∀ e stack e' rest, readOperator last e stack ts = .ok (e', rest) →
        rest.length ≤ ts.length) := by
  induction ts with
  | nil =>
    refine ⟨fun stack e rest h => ?_, fun e stack e' rest h => ?_⟩
    · simp [readOperand] at h
    · rw [readOperator] at h
      exact Nat.le_of_eq (congrArg List.length (finish_rest h))
  | cons t ts ih =>
    obtain ⟨ihOperand, ihOperator⟩ := ih
    refine ⟨fun stack e rest h => ?_, fun e stack e' rest h => ?_⟩
    · rw [readOperand] at h
      rw [List.length_cons]
      split at h
      · exact Nat.lt_succ_of_le (ihOperator _ _ _ _ h)
      split at h
      · exact Nat.lt_succ_of_lt (ihOperand _ _ _ h)
      split at h
      · exact Nat.lt_succ_of_lt (ihOperand _ _ _ h)
      split at h <;> cases h
    · rw [readOperator] at h
      rw [List.length_cons]
      split at h
      · split at h
        · split at h
          · exact Nat.le_of_eq (congrArg List.length (finish_rest h))
          · exact Nat.le_succ_of_le (Nat.le_of_lt (ihOperand _ _ _ h))
        · exact Nat.le_succ_of_le (Nat.le_of_lt (ihOperand _ _ _ h))
      · split at h
        · split at h
          · exact Nat.le_succ_of_le (ihOperator _ _ _ _ h)
          · exact Nat.le_of_eq (congrArg List.length (finish_rest h))
        · exact Nat.le_of_eq (congrArg List.length (finish_rest h))

namespace Expr

/-- Reads one expression from the front of a list of tokens, and returns the tokens behind it.
When the tokens run out, the end is reported at the last one of `all`. -/
def read (all tokens : List Token) : Except ExprError (Expr × List Token) :=
  readOperand ((all.getLast?.map (·.position)).getD 0) [] tokens

/-- An expression takes at least one token. -/
theorem read_rest_length {all tokens rest : List Token} {e : Expr}
    (h : read all tokens = .ok (e, rest)) : rest.length < tokens.length :=
  (read_length _ tokens).1 _ _ _ h

/-- Reads one expression beginning at the token of the given index, and returns the index behind
it. -/
def readAt (tokens : List Token) (index : Nat) : Except ExprError (Expr × Nat) := do
  let (e, rest) ← read tokens (tokens.drop index)
  return (e, tokens.length - rest.length)

/-- Reads a text that is one expression and nothing else. -/
def parse (text : String) : Except ExprError Expr := do
  let tokens ← Token.list text
  if tokens.length ≤ 1 then throw .empty
  let (e, rest) ← read tokens tokens
  match rest with
  | t :: _ => if t.kind = .eof then return e else throw (.unexpectedToken t.text t.position)
  | [] => return e

end Expr

end Stencil

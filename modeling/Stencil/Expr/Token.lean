import Stencil.Text.Blank
import Stencil.Text.Digit
import Stencil.Text.WordChar

/-!
# Tokens of expressions

The text of an expression is cut into tokens from left to right: string literals in either quote
style, numerals, the keywords `true` and `false`, names, operators, parentheses, and the marks that
end an interpolation or a tag. Blanks between tokens are dropped.

Scanning may end early at a *stop token* outside parentheses, so that the text behind a tag is
never looked at.

## Main definitions

* `Token` is a token with its text and its position.
* `munch c rest` measures the lexeme that begins with `c`.
* `scan` cuts a text into tokens, `Token.listUntil` and `Token.list` add the token that marks the
  end.

## Main results

* `scan_nil`, `scan_blank`, `scan_stop` and `scan_token` are the steps of a scan.
-/

namespace Stencil

/-- The kinds of tokens. -/
inductive TokenKind
  | string
  | number
  | keyword
  | identifier
  | operator
  /-- A parenthesis or the brace that ends an interpolation. -/
  | symbol
  /-- The mark that ends a tag. -/
  | tagEnd
  /-- The end of the tokens. -/
  | eof
  deriving Repr, DecidableEq

/-- A token: its kind, its text as written and the number of characters before it. -/
structure Token where
  kind : TokenKind
  text : String
  position : Nat
  deriving Repr, DecidableEq

/-- Why an expression cannot be read. Positions count characters of the source text. -/
inductive ExprError
  /-- A quote that opens a literal which nothing closes. -/
  | unterminatedString (position : Nat)
  /-- A character that begins no token. -/
  | unexpectedCharacter (c : Char) (position : Nat)
  /-- No token at all. -/
  | empty
  /-- A token where no expression goes on with it. -/
  | unexpectedToken (text : String) (position : Nat)
  /-- The tokens end where an operand is due. -/
  | unexpectedEnd (position : Nat)
  /-- Something other than the closing parenthesis that is due. -/
  | unclosedGroup (position : Nat)
  deriving Repr, DecidableEq

/-- The wording of an error. -/
def ExprError.message : ExprError → String
  | unterminatedString p => "Unterminated string literal starting at position " ++ toString p
  | unexpectedCharacter c p =>
    "Unexpected character '" ++ String.singleton c ++ "' at position " ++ toString p
  | empty => "Empty expression"
  | unexpectedToken t p => "Unexpected token '" ++ t ++ "' at position " ++ toString p
  | unexpectedEnd p => "Unexpected end of expression at position " ++ toString p
  | unclosedGroup p => "Expected ')' at position " ++ toString p

/-! ## Lexemes -/

/-- The number of characters up to and including the quote that closes a literal. A backslash
takes the character behind it along. -/
def closeQuote (mark : Char) : List Char → Option Nat
  | [] => none
  | ['\\'] => none
  | '\\' :: _ :: rest => (closeQuote mark rest).map (· + 2)
  | c :: rest => if c = mark then some 1 else (closeQuote mark rest).map (· + 1)

/-- The number of characters that continue a numeral: digits, and a point when digits follow. -/
def numeralLength (rest : List Char) : Nat :=
  let whole := rest.takeWhile isDigit
  let fraction :=
    match rest.dropWhile isDigit with
    | '.' :: r => r.takeWhile isDigit
    | _ => []
  if fraction.isEmpty then whole.length else whole.length + 1 + fraction.length

/-- The number of characters that continue an operator which may be doubled by `second`. -/
def operatorLength (second : Char) (rest : List Char) : Nat :=
  if rest.head? = some second then 1 else 0

/-- What a lexeme is. -/
inductive Lexeme
  /-- A run of blanks. -/
  | blank
  | token (kind : TokenKind)
  deriving Repr, DecidableEq

/-- The two words that are no names. -/
def isKeyword (word : List Char) : Bool :=
  word = ['t', 'r', 'u', 'e'] ∨ word = ['f', 'a', 'l', 's', 'e']

/-- The lexeme that begins with `c`, and the number of its further characters. -/
def munch (c : Char) (rest : List Char) : Option (Lexeme × Nat) :=
  if isBlank c then some (.blank, (rest.takeWhile isBlank).length)
  else if c = '"' ∨ c = '\'' then (closeQuote c rest).map fun n => (.token .string, n)
  else if isDigit c then some (.token .number, numeralLength rest)
  else if isNameStart c then
    let more := rest.takeWhile isNamePart
    some (.token (if isKeyword (c :: more) then .keyword else .identifier), more.length)
  else if c = '/' then
    if rest.head? = some '>' then some (.token .tagEnd, 1) else none
  else if c = '>' then some (.token .tagEnd, 0)
  else if c = '=' ∨ c = '!' then some (.token .operator, operatorLength '=' rest)
  else if c = '+' then some (.token .operator, 0)
  else if c = '&' ∨ c = '|' then
    if rest.head? = some c then some (.token .operator, 1) else none
  else if c = '(' ∨ c = ')' ∨ c = '}' then some (.token .symbol, 0)
  else none

/-! ## Scanning -/

/-- The number of open parentheses behind a token. -/
def depthAfter (depth : Nat) (text : String) : Nat :=
  if text = "(" then depth + 1 else if text = ")" then depth - 1 else depth

/-- Whether scanning ends with a token: it is a stop token, no parenthesis, and no parenthesis is
open. -/
def stopsAt (stops : List String) (depth : Nat) (text : String) : Bool :=
  text ≠ "(" && text ≠ ")" && depth = 0 && stops.contains text

/-- Cuts a text into tokens, the first of its characters standing at `position` inside `depth`
open parentheses. The result holds the tokens and the position behind the last character read. -/
def scan (stops : List String) (depth position : Nat) :
    List Char → Except ExprError (List Token × Nat)
  | [] => .ok ([], position)
  | c :: cs =>
    match munch c cs with
    | none =>
      .error (if c = '"' ∨ c = '\'' then .unterminatedString position
        else .unexpectedCharacter c position)
    | some (.blank, n) => scan stops depth (position + (n + 1)) (cs.drop n)
    | some (.token kind, n) =>
      let t : Token := ⟨kind, String.ofList (c :: cs.take n), position⟩
      if stopsAt stops depth t.text then .ok ([t], position + (n + 1))
      else
        match scan stops (depthAfter depth t.text) (position + (n + 1)) (cs.drop n) with
        | .ok (ts, stop) => .ok (t :: ts, stop)
        | .error e => .error e
termination_by cs => cs.length
decreasing_by all_goals simp only [List.length_drop, List.length_cons]; omega

theorem scan_nil (stops : List String) (depth position : Nat) :
    scan stops depth position [] = .ok ([], position) := by
  rw [scan]

/-- A run of blanks is skipped. -/
theorem scan_blank {c : Char} {cs : List Char} {n : Nat} (h : munch c cs = some (.blank, n))
    (stops : List String) (depth position : Nat) :
    scan stops depth position (c :: cs) =
      scan stops depth (position + (n + 1)) (cs.drop n) := by
  rw [scan, h]

/-- A stop token ends the scan. -/
theorem scan_stop {c : Char} {cs : List Char} {kind : TokenKind} {n : Nat}
    (h : munch c cs = some (.token kind, n)) {stops : List String} {depth : Nat}
    (hstop : stopsAt stops depth (String.ofList (c :: cs.take n)) = true) (position : Nat) :
    scan stops depth position (c :: cs) =
      .ok ([⟨kind, String.ofList (c :: cs.take n), position⟩], position + (n + 1)) := by
  rw [scan, h]
  simp only [hstop, if_true]

/-- Any other token is put before those that follow it. -/
theorem scan_token {c : Char} {cs : List Char} {kind : TokenKind} {n : Nat}
    (h : munch c cs = some (.token kind, n)) {stops : List String} {depth : Nat}
    (hstop : stopsAt stops depth (String.ofList (c :: cs.take n)) = false) (position : Nat) :
    scan stops depth position (c :: cs) =
      (scan stops (depthAfter depth (String.ofList (c :: cs.take n))) (position + (n + 1))
        (cs.drop n)).map fun r =>
          (⟨kind, String.ofList (c :: cs.take n), position⟩ :: r.1, r.2) := by
  rw [scan, h]
  simp only [hstop]
  cases scan stops (depthAfter depth (String.ofList (c :: cs.take n))) (position + (n + 1))
    (cs.drop n) <;> rfl

namespace Token

/-- The token that marks the end of the tokens. -/
def endAt (position : Nat) : Token := ⟨.eof, "", position⟩

/-- The tokens of a text from an offset on, up to and including the first stop token outside
parentheses, and the position behind them. -/
def listUntil (text : List Char) (start : Nat) (stops : List String) :
    Except ExprError (List Token × Nat) := do
  let (tokens, stop) ← scan stops 0 start (text.drop start)
  return (tokens ++ [endAt stop], stop)

/-- The tokens of a whole text. -/
def list (text : String) : Except ExprError (List Token) := do
  return (← listUntil text.toList 0 []).1

end Token

end Stencil

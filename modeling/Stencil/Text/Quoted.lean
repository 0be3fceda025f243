/-!
# Quoted string literals

The written form of a string literal: double quotes around a body in which a quote, a backslash, a
line break and a tab are written as two characters, and any other control character as `\x` with
four hexadecimal digits. Reading is more liberal than writing: a backslash before any other
character stands for that character, so both quote styles and redundant escapes are read back.

## Main definitions

* `Quoted.encode` writes the body of a literal, `Quoted.decode` reads it.
* `quote` writes a whole literal, `quoteOrNull` also writes an absent string.

## Main results

* `Quoted.decode_encode`: decoding what was encoded gives the text back.
-/

namespace Stencil

namespace Quoted

/-- The digit, in upper case, of a number below sixteen. -/
def hexDigit (n : Nat) : Char :=
  if n < 10 then Char.ofNat (48 + n) else Char.ofNat (55 + n)

/-- The value of a hexadecimal digit in either case. -/
def hexValue? (c : Char) : Option Nat :=
  if '0' ≤ c ∧ c ≤ '9' then some (c.toNat - 48)
  else if 'A' ≤ c ∧ c ≤ 'F' then some (c.toNat - 55)
  else if 'a' ≤ c ∧ c ≤ 'f' then some (c.toNat - 87)
  else none

/-- How one character is written inside a literal. -/
def encodeChar (c : Char) : List Char :=
  if c = '"' then ['\\', '"']
  else if c = '\\' then ['\\', '\\']
  else if c = '\n' then ['\\', 'n']
  else if c = '\r' then ['\\', 'r']
  else if c = '\t' then ['\\', 't']
  else if c.toNat < 32 then ['\\', 'x', '0', '0', hexDigit (c.toNat / 16), hexDigit (c.toNat % 16)]
  else [c]

/-- The body of the literal that writes a text. -/
def encode (s : List Char) : List Char :=
  s.flatMap encodeChar

/-- The character whose code is written by four hexadecimal digits. -/
def hexChar? (a b c d : Char) : Option Char := do
  let a ← hexValue? a
  let b ← hexValue? b
  let c ← hexValue? c
  let d ← hexValue? d
  return Char.ofNat (((a * 16 + b) * 16 + c) * 16 + d)

/-- What a single escaped character stands for. -/
def escaped (c : Char) : Char :=
  if c = 'n' then '\n' else if c = 't' then '\t' else if c = 'r' then '\r' else c

/-- The text that the body of a literal stands for. A backslash that ends the body stands for
itself. -/
def decode : List Char → List Char
  | [] => []
  | '\\' :: 'x' :: a :: b :: c :: d :: rest =>
    match hexChar? a b c d with
    | some ch => ch :: decode rest
    | none => 'x' :: decode (a :: b :: c :: d :: rest)
  | '\\' :: c :: rest => escaped c :: decode rest
  | c :: rest => c :: decode rest

@[simp] theorem decode_nil : decode [] = [] := by
  rw [decode]

/-- A character that is no backslash stands for itself. -/
theorem decode_cons {c : Char} (h : c ≠ '\\') (rest : List Char) :
    decode (c :: rest) = c :: decode rest := by
  rw [decode]
  · rintro a b c' d r rfl
    simp_all
  · rintro c' r rfl
    simp_all

/-- A backslash before a character other than `x` escapes that character alone. -/
theorem decode_escape {c : Char} (h : c ≠ 'x') (rest : List Char) :
    decode ('\\' :: c :: rest) = escaped c :: decode rest := by
  rw [decode]
  rintro a b c' d r rfl
  simp_all

/-- A four-digit escape stands for the character of that code. -/
theorem decode_hex {a b c d ch : Char} (h : hexChar? a b c d = some ch) (rest : List Char) :
    decode ('\\' :: 'x' :: a :: b :: c :: d :: rest) = ch :: decode rest := by
  rw [decode, h]

/-- The escape of a control character reads back. -/
theorem hexChar?_hexDigit : ∀ n < 32,
    hexChar? '0' '0' (hexDigit (n / 16)) (hexDigit (n % 16)) = some (Char.ofNat n) := by
  decide

/-- What one character was written as is read back first, whatever follows. -/
theorem decode_encodeChar (c : Char) (rest : List Char) :
    decode (encodeChar c ++ rest) = c :: decode rest := by
  unfold encodeChar
  split
  · next h => subst h; exact decode_escape (by decide) rest
  split
  · next h => subst h; exact decode_escape (by decide) rest
  split
  · next h => subst h; exact decode_escape (by decide) rest
  split
  · next h => subst h; exact decode_escape (by decide) rest
  split
  · next h => subst h; exact decode_escape (by decide) rest
  split
  · next h =>
    have := hexChar?_hexDigit c.toNat h
    rw [Char.ofNat_toNat] at this
    exact decode_hex this rest
  · exact decode_cons (by assumption) rest

/-- Reading what was written gives the text back. -/
theorem decode_encode (s : List Char) : decode (encode s) = s := by
  induction s with
  | nil => simp [encode]
  | cons c s ih =>
    rw [encode, List.flatMap_cons, decode_encodeChar]
    exact congrArg (c :: ·) ih

end Quoted

/-- The literal that writes a text. -/
def quote (s : String) : String :=
  String.ofList ('"' :: Quoted.encode s.toList ++ ['"'])

/-- The literal of a text, or the word `null` for an absent one. -/
def quoteOrNull : Option String → String
  | some s => quote s
  | none => "null"

/-- The text that the body of a literal stands for. -/
def unquote (body : String) : String :=
  String.ofList (Quoted.decode body.toList)

/-- Decoding the body of a text's literal gives the text back. -/
theorem unquote_encode (s : String) :
    unquote (String.ofList (Quoted.encode s.toList)) = s := by
  simp [unquote, Quoted.decode_encode]

end Stencil

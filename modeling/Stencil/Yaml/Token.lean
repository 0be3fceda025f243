import Stencil.Text.Cursor
import Stencil.Yaml.Scalar

/-!
# Tokens of YAML documents

The text of a document is cut into tokens: the dash of a list item, the brackets, braces and commas
of lists and mappings in flow style, scalars, and the markers that begin and end a document. A
scalar with a colon behind it, all on one line, is the key of a mapping, and the colon belongs to
its token.

Which characters end a scalar without quotes depends on what is open around it: in flow style a
bracket, a brace or a comma does, and in block style it goes on over the lines that are indented
more than the innermost open block.

Line breaks inside a scalar are *folded*: a single one becomes a space, of several the first is
dropped, and blanks around them are dropped too.

## Main definitions

* `Yaml.Token` is the type of tokens, `Yaml.Context` what is open around one.
* `Yaml.Gap` is a run of blanks and line breaks inside a scalar.
* `Yaml.plain`, `Yaml.singleQuoted` and `Yaml.doubleQuoted` read scalars.
* `Yaml.blankLength` measures what stands before a token, `Yaml.tokenAt` reads one.
-/

namespace Stencil

namespace Yaml

/-- Why a text is no document. -/
inductive Issue
  /-- A character that no document contains. -/
  | unprintable
  /-- A character that begins no token. -/
  | unexpectedCharacter (c : Char)
  /-- A feature of the language that is not supported. -/
  | unsupported (c : Char)
  /-- A quote that nothing closes. -/
  | unclosedQuote
  /-- A backslash in front of something that it does not escape. -/
  | unknownEscape
  /-- A marker of a document inside a scalar in quotes. -/
  | markerInQuotes
  /-- A token where it may not stand. -/
  | misplacedToken
  /-- A key that its mapping has already. -/
  | duplicateKey (key : Value)
  /-- A list or a mapping in flow style that nothing closes. -/
  | unclosedFlow
  deriving Repr, Inhabited

/-- The wording of an issue. -/
def Issue.message : Issue → String
  | unprintable => "special characters are not allowed"
  | unexpectedCharacter c => "found character " ++ display c.toString ++ " that cannot start a token"
  | unsupported c => "found unsupported indicator " ++ display c.toString
  | unclosedQuote => "found unexpected end of a quoted scalar"
  | unknownEscape => "found unknown escape character"
  | markerInQuotes => "found unexpected document separator"
  | misplacedToken => "found a token that is not expected here"
  | duplicateKey key => "found duplicate key " ++ key.display
  | unclosedFlow => "found unexpected end of a flow collection"

/-- A token. -/
inductive Token
  /-- The dash before an item of a list in block style. -/
  | dash
  | openList
  | closeList
  | openMapping
  | closeMapping
  | comma
  | scalar (value : Value)
  /-- A scalar with a colon behind it. -/
  | key (value : Value)
  /-- The marker at the beginning of a document. -/
  | documentStart
  /-- The marker at the end of a document. -/
  | documentEnd
  deriving Repr, Inhabited

/-- What is open around a token. -/
inductive Context
  /-- A block whose tokens begin at this column; column zero stands for no block at all. -/
  | block (column : Nat)
  /-- A list in flow style. -/
  | flowList
  /-- A mapping in flow style. -/
  | flowMapping
  deriving Repr, DecidableEq

/-- A context in flow style. -/
def Context.isFlow : Context → Bool
  | block _ => false
  | _ => true

/-! ## Between tokens -/

/-- A space, a tab or a line break. -/
def isGap (c : Char) : Bool :=
  c = ' ' || c = '\t' || c = '\n'

/-- A mark that stands before this text stands alone. -/
def standsAlone : List Char → Bool
  | [] => true
  | c :: _ => isGap c

/-- The marker of a document at the beginning of a line. -/
def marker? : List Char → Option Token
  | '-' :: '-' :: '-' :: rest => if standsAlone rest then some .documentStart else none
  | '.' :: '.' :: '.' :: rest => if standsAlone rest then some .documentEnd else none
  | _ => none

/-- The number of characters before the next token: blanks, line breaks and comments, which reach
from a number sign to the end of the line. Tabs count as blanks in flow style only. -/
def blankLength (isFlow inComment : Bool) : List Char → Nat
  | [] => 0
  | c :: rest =>
    if c = '\n' then blankLength isFlow false rest + 1
    else if inComment || c = ' ' || (isFlow && c = '\t') then
      blankLength isFlow inComment rest + 1
    else if c = '#' then blankLength isFlow true rest + 1
    else 0

/-! ## Inside scalars -/

/-- A run of blanks and line breaks inside a scalar. -/
inductive Gap
  /-- Blanks only, the last one first. -/
  | blanks (cs : List Char)
  /-- A line break and `more` further ones; the first one is `escaped` when a backslash stands
  before it. -/
  | breaks (escaped : Bool) (more : Nat)
  deriving Repr, DecidableEq

namespace Gap

/-- The empty gap. -/
def empty : Gap := blanks []

/-- The gap with one more blank: blanks beside a line break are dropped. -/
def addBlank (c : Char) : Gap → Gap
  | blanks cs => blanks (c :: cs)
  | breaks escaped more => breaks escaped more

/-- The gap with one more line break. -/
def addBreak : Gap → Gap
  | blanks _ => breaks false 0
  | breaks escaped more => breaks escaped (more + 1)

/-- What a gap contributes to the scalar, the last character first. -/
def folded : Gap → List Char
  | blanks cs => cs
  | breaks escaped 0 => if escaped then [] else [' ']
  | breaks _ (more + 1) => List.replicate (more + 1) '\n'

/-- A gap with a line break in it. -/
def isBreak : Gap → Bool
  | blanks _ => false
  | breaks _ _ => true

end Gap

/-- The characters that have a meaning of their own in flow style. -/
def flowIndicators : List Char := [',', '[', ']', '{', '}']

/-- The characters that begin no plain scalar. -/
def indicators : List Char :=
  flowIndicators ++ ['#', '&', '*', '!', '|', '>', '\'', '"', '%', '@', '\x60']

/-- Whether a plain scalar begins with the character `c` in front of `rest`. -/
def beginsPlain (isFlow : Bool) (c : Char) (rest : List Char) : Bool :=
  if c = '-' then !standsAlone rest
  else if c = ':' then !standsAlone rest
  else if c = '?' then !isFlow && !standsAlone rest
  else !isGap c && !indicators.contains c

/-- Whether a plain scalar ends before the character `c`, which stands at a column behind a gap and
in front of `rest`. -/
def endsPlain (context : Context) (column : Nat) (gap : Gap) (c : Char) (rest : List Char) :
    Bool :=
  c = '\t' || (c = '#' && gap != .empty) || (c = ':' && standsAlone rest) ||
    (context.isFlow && flowIndicators.contains c) ||
    (gap.isBreak &&
      ((column = 1 && (marker? (c :: rest)).isSome) ||
        match context with
        | .block indent => column ≤ indent
        | _ => false))

/-- Reads a plain scalar, and the number of characters it takes. So far it has the characters
`text`, the last one first, of which the last is followed by `gap`; `kept` characters lead up to
the gap and `seen` up to here. -/
def plain (context : Context) (column : Nat) (gap : Gap) (text : List Char) (kept seen : Nat) :
    List Char → List Char × Nat
  | [] => (text.reverse, kept)
  | c :: rest =>
    if c = '\n' then plain context 1 gap.addBreak text kept (seen + 1) rest
    else if c = ' ' then plain context (column + 1) (gap.addBlank c) text kept (seen + 1) rest
    else if endsPlain context column gap c rest then (text.reverse, kept)
    else
      plain context (column + 1) .empty (c :: (gap.folded ++ text)) (seen + 1) (seen + 1) rest

/-- Reads a scalar in single quotes from behind the opening one, where a quote inside is written
twice. -/
def singleQuoted (gap : Gap) (text : List Char) (seen : Nat) :
    List Char → Except Issue (List Char × Nat)
  | [] => .error .unclosedQuote
  | '\'' :: '\'' :: rest => singleQuoted .empty ('\'' :: (gap.folded ++ text)) (seen + 2) rest
  | '\'' :: _ => .ok ((gap.folded ++ text).reverse, seen + 1)
  | '\n' :: rest =>
    if (marker? rest).isSome then .error .markerInQuotes
    else singleQuoted gap.addBreak text (seen + 1) rest
  | c :: rest =>
    if isGap c then singleQuoted (gap.addBlank c) text (seen + 1) rest
    else singleQuoted .empty (c :: (gap.folded ++ text)) (seen + 1) rest

/-- The characters that are escaped by one letter. -/
def escapes : List (Char × Char) :=
  [('0', '\x00'), ('a', '\x07'), ('b', '\x08'), ('t', '\t'), ('\t', '\t'), ('n', '\n'),
    ('v', '\x0b'), ('f', '\x0c'), ('r', '\r'), ('e', '\x1b'), (' ', ' '), ('"', '"'), ('/', '/'),
    ('\\', '\\'), ('N', '\u0085'), ('_', '\u00a0'), ('L', '\u2028'), ('P', '\u2029')]

/-- The number of hexadecimal digits behind a letter that escapes by code point. -/
def codeLength (c : Char) : Nat :=
  if c = 'x' then 2 else if c = 'u' then 4 else if c = 'U' then 8 else 0

/-- The character that is escaped at the front of a text, and the number of characters behind the
first that its escape takes. -/
def escaped? (c : Char) (rest : List Char) : Option (Char × Nat) :=
  match escapes.lookup c with
  | some x => some (x, 0)
  | none => do
    let n := codeLength c
    guard (n ≠ 0 ∧ n ≤ rest.length)
    let code ← if (rest.take n).all (isDigitOf 16) then natural? 16 (rest.take n) else none
    guard code.isValidChar
    return (Char.ofNat code, n)

/-- Reads a scalar in double quotes from behind the opening one. A backslash escapes a character,
or joins two lines without a space. -/
def doubleQuoted (gap : Gap) (text : List Char) (seen : Nat) :
    List Char → Except Issue (List Char × Nat)
  | [] => .error .unclosedQuote
  | '"' :: _ => .ok ((gap.folded ++ text).reverse, seen + 1)
  | '\\' :: '\n' :: rest =>
    doubleQuoted (.breaks true 0) (gap.folded ++ text) (seen + 2) rest
  | '\\' :: c :: rest =>
    match escaped? c rest with
    | some (x, n) => doubleQuoted .empty (x :: (gap.folded ++ text)) (seen + 2 + n) (rest.drop n)
    | none => .error .unknownEscape
  | '\n' :: rest =>
    if (marker? rest).isSome then .error .markerInQuotes
    else doubleQuoted gap.addBreak text (seen + 1) rest
  | c :: rest =>
    if isGap c then doubleQuoted (gap.addBlank c) text (seen + 1) rest
    else doubleQuoted .empty (c :: (gap.folded ++ text)) (seen + 1) rest
termination_by s => s.length
decreasing_by all_goals simp only [List.length_cons, List.length_drop]; omega

/-! ## Tokens -/

/-- The number of characters up to and including the colon that makes a key of the scalar before
it. -/
def colonLength? (context : Context) (s : List Char) : Option Nat :=
  let isSpace (c : Char) : Bool := c = ' ' || (context.isFlow && c = '\t')
  match s.dropWhile isSpace with
  | ':' :: rest =>
    if context = .flowMapping || standsAlone rest then some ((s.takeWhile isSpace).length + 1)
    else none
  | _ => none

/-- The token of a scalar that takes `n` characters of `s`. -/
def scalarToken (context : Context) (value : Value) (n : Nat) (s : List Char) : Token × Nat :=
  if (s.take n).contains '\n' then (.scalar value, n)
  else
    match colonLength? context (s.drop n) with
    | some k => (.key value, n + k)
    | none => (.scalar value, n)

/-- The token at the front of `c :: rest`, which stands at a column, and the number of characters
it takes. -/
def tokenAt (context : Context) (column : Nat) (c : Char) (rest : List Char) :
    Except Issue (Token × Nat) :=
  match if column = 1 then marker? (c :: rest) else none with
  | some t => .ok (t, 3)
  | none =>
    match c with
    | '[' => .ok (.openList, 1)
    | ']' => .ok (.closeList, 1)
    | '{' => .ok (.openMapping, 1)
    | '}' => .ok (.closeMapping, 1)
    | ',' => .ok (.comma, 1)
    | '\'' => do
      let (text, n) ← singleQuoted .empty [] 1 rest
      return scalarToken context (.str (String.ofList text)) n (c :: rest)
    | '"' => do
      let (text, n) ← doubleQuoted .empty [] 1 rest
      return scalarToken context (.str (String.ofList text)) n (c :: rest)
    | _ =>
      if beginsPlain context.isFlow c rest then
        let (text, n) := plain context (column + 1) .empty [c] 1 1 rest
        .ok (scalarToken context (plainValue text) n (c :: rest))
      else if c = '-' then .ok (.dash, 1)
      else if ['?', '&', '*', '!', '|', '>', '%'].contains c then .error (.unsupported c)
      else .error (.unexpectedCharacter c)

end Yaml

end Stencil

import Stencil.Error.Parsing

/-!
# Pieces of template sources

The source of a template is cut, from left to right and without gaps, into runs of text,
interpolations, directive tags, end tags and comments. The inside of an interpolation and of a
directive tag is cut into tokens of expressions, whose positions count from the beginning of the
source. Comments are dropped.

## Main definitions

* `Piece` is a piece with the place where it begins.
* `cut` measures the piece at the front of a source.
* `pieces` cuts a whole source.

## Main results

* `pieces_nil` and `pieces_cons` are the steps.
-/

namespace Stencil

/-- The content of a piece. -/
inductive PieceKind
  | text (content : String)
  /-- The tokens between the braces, and the token that marks their end. -/
  | interpolation (tokens : List Token)
  /-- The tokens between the name and the end of the tag, and the token that marks their end. -/
  | directive (name : String) (tokens : List Token) (selfClosing : Bool)
  | endTag (name : String)
  deriving Repr, DecidableEq

/-- A piece of a source. -/
structure Piece where
  kind : PieceKind
  place : Place
  deriving Repr, DecidableEq

/-! ## Markers -/

/-- What the characters at the front of a text begin, other than text. -/
inductive Marker
  | interpolation
  | comment
  | tag
  | endTag
  deriving Repr, DecidableEq

/-- The marker at the front of a text. -/
def markerAt : List Char → Option Marker
  | '$' :: '{' :: _ => some .interpolation
  | '<' :: '#' :: '-' :: '-' :: _ => some .comment
  | '<' :: '#' :: _ => some .tag
  | '<' :: '/' :: '#' :: _ => some .endTag
  | _ => none

/-- The number of characters before the first marker. -/
def textLength : List Char → Nat
  | [] => 0
  | c :: rest => if (markerAt (c :: rest)).isSome then 0 else textLength rest + 1

/-- The number of characters up to and including the first `-->`. -/
def commentLength : List Char → Option Nat
  | [] => none
  | '-' :: '-' :: '>' :: _ => some 3
  | _ :: rest => (commentLength rest).map (· + 1)

/-- The number of characters of the name at the front of a text; zero if there is none. -/
def nameLength : List Char → Nat
  | [] => 0
  | c :: rest => if isNameStart c then (rest.takeWhile isNamePart).length + 1 else 0

/-! ## Cutting -/

/-- The tokens from the front of a text to the first stop token, and the position behind them. -/
def scanInside (stops : List String) (position : Nat) (s : List Char) :
    Except ParseIssue (List Token × Nat) :=
  match scan stops 0 position s with
  | .ok r => .ok r
  | .error e => .error (.expression e)

/-- The tokens without the terminator, and the token that marks their end. -/
def inside (tokens : List Token) (stop : Nat) : List Token :=
  tokens.dropLast ++ [Token.endAt stop]

/-- The piece that an interpolation is; `s` begins behind its marker. -/
def cutInterpolation (k : Nat) (s : List Char) : Except ParseIssue (PieceKind × Nat) := do
  let (tokens, stop) ← scanInside ["\x7d"] (k + 2) s
  match tokens.getLast? with
  | some t =>
    if t.text = "\x7d" then return (.interpolation (inside tokens stop), stop - k)
    else throw .unclosedInterpolation
  | none => throw .unclosedInterpolation

/-- The piece that a directive tag is; `s` begins behind its marker. -/
def cutDirective (k : Nat) (s : List Char) : Except ParseIssue (PieceKind × Nat) := do
  let n := nameLength s
  if n = 0 then throw .missingDirectiveName
  let name := String.ofList (s.take n)
  let (tokens, stop) ← scanInside [">", "/>"] (k + 2 + n) (s.drop n)
  match tokens.getLast? with
  | some t =>
    if t.kind = .tagEnd then
      return (.directive name (inside tokens stop) (t.text = "/>"), stop - k)
    else throw (.unclosedTag name)
  | none => throw (.unclosedTag name)

/-- The piece that an end tag is; `s` begins behind its marker. -/
def cutEndTag (s : List Char) : Except ParseIssue (PieceKind × Nat) := do
  let n := nameLength s
  if n = 0 then throw .missingEndTagName
  let name := String.ofList (s.take n)
  let blanks := (s.drop n).takeWhile isBlank
  match (s.drop n).dropWhile isBlank with
  | '>' :: _ => return (.endTag name, 3 + n + blanks.length + 1)
  | _ => throw (.unclosedEndTag name)

/-- The piece at the front of a text that begins at the offset `k`, and its length. A comment is a
piece without content. -/
def cut (k : Nat) (s : List Char) : Except ParseIssue (Option PieceKind × Nat) :=
  match markerAt s with
  | none =>
    let n := textLength s
    .ok (some (.text (String.ofList (s.take n))), n)
  | some .comment =>
    match commentLength (s.drop 4) with
    | some n => .ok (none, 4 + n)
    | none => .error .unclosedComment
  | some .interpolation => do
    let (piece, n) ← cutInterpolation k (s.drop 2)
    return (some piece, n)
  | some .tag => do
    let (piece, n) ← cutDirective k (s.drop 2)
    return (some piece, n)
  | some .endTag => do
    let (piece, n) ← cutEndTag (s.drop 3)
    return (some piece, n)

/-- The pieces of a text that begins at the cursor `k`, and the cursor at its end. An issue comes
with the place where its piece begins. -/
def pieces (k : Cursor) : List Char → Except (ParseIssue × Place) (List Piece × Cursor)
  | [] => .ok ([], k)
  | c :: cs =>
    match cut k.offset (c :: cs) with
    | .error issue => .error (issue, k.place)
    | .ok (piece, n) =>
      match pieces (k.across (c :: cs.take (n - 1))) (cs.drop (n - 1)) with
      | .error e => .error e
      | .ok (rest, stop) =>
        .ok ((piece.map fun p => (⟨p, k.place⟩ : Piece)).toList ++ rest, stop)
termination_by s => s.length
decreasing_by simp only [List.length_drop, List.length_cons]; omega

theorem pieces_nil (k : Cursor) : pieces k [] = .ok ([], k) := by
  rw [pieces]

/-- A source is its first piece and the pieces behind it. -/
theorem pieces_cons {k : Cursor} {c : Char} {cs : List Char} {piece : Option PieceKind} {n : Nat}
    (h : cut k.offset (c :: cs) = .ok (piece, n)) :
    pieces k (c :: cs) =
      (pieces (k.across (c :: cs.take (n - 1))) (cs.drop (n - 1))).map fun r =>
        ((piece.map fun p => (⟨p, k.place⟩ : Piece)).toList ++ r.1, r.2) := by
  rw [pieces, h]
  simp only
  cases pieces (k.across (c :: cs.take (n - 1))) (cs.drop (n - 1)) <;> rfl

end Stencil

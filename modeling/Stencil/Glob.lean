import Stencil.Glob.Regular
import Stencil.Name
import Stencil.Text.Blank
import Stencil.Text.Display

/-!
# Patterns for names of files

A pattern selects paths segment by segment. In a segment `*` stands for any characters, `?` for one
and brackets for one of a class; a backslash takes away the meaning of the character behind it. The
segment `**` stands for any number of segments. A pattern of a single segment selects at every
depth, any other one from the root; a pattern that ends in a slash selects what lies inside a
directory. Whatever a pattern selects, it selects also what lies below it.

A list of patterns is read from the end: the last one that selects a path decides, and a pattern
with an exclamation mark in front decides that the path is not excluded.

## Main definitions

* `Glob.segment?` is the set of texts that a segment stands for.
* `Glob.rule?` reads a pattern; `Glob.excludes` applies a list of them to a path.

## Main results

* `Glob.excludes_nil`: without patterns nothing is excluded.
-/

namespace Stencil

namespace Glob

/-- The class of characters other than a slash. -/
def notSlash : CharClass := .except '/'

/-! ## Segments -/

/-- The ranges that the inside of brackets lists: characters, and pairs with a hyphen between
them. -/
def ranges : List Char → List CharRange
  | first :: '-' :: last :: rest => ⟨first.toNat, last.toNat⟩ :: ranges rest
  | c :: rest => ⟨c.toNat, c.toNat⟩ :: ranges rest
  | [] => []

/-- The class that brackets denote, and the number of characters up to the closing one; the text
begins behind the opening one. A mark in front negates the class, and a closing bracket that comes
first belongs to it. -/
def bracket? (s : List Char) : Option (CharClass × Nat) :=
  let (negated, body) :=
    match s with
    | '!' :: rest => (true, rest)
    | '^' :: rest => (true, rest)
    | _ => (false, s)
  let (first, rest) :=
    match body with
    | ']' :: rest => ([']'], rest)
    | _ => ([], body)
  let inside := rest.takeWhile (· ≠ ']')
  if inside.length < rest.length then
    some (⟨negated, ranges (first ++ inside)⟩, s.length - rest.length + inside.length + 1)
  else none

/-- The texts that a segment stands for; none for a segment that ends in a lone backslash. An
opening bracket without a closing one stands for itself. -/
def segment? : List Char → Option Regular
  | [] => some .empty
  | '\\' :: c :: rest => (segment? rest).map (.follow (.char c))
  | ['\\'] => none
  | '*' :: rest => (segment? rest).map (.follow (.many (.one notSlash)))
  | '?' :: rest => (segment? rest).map (.follow (.one notSlash))
  | '[' :: rest =>
    match bracket? rest with
    | some (k, n) => (segment? (rest.drop n)).map (.follow (.one k))
    | none => (segment? rest).map (.follow (.char '['))
  | c :: rest => (segment? rest).map (.follow (.char c))
termination_by s => s.length
decreasing_by all_goals simp only [List.length_cons, List.length_drop]; omega

/-- The texts that a segment stands for, where `*` alone stands for a whole segment. -/
def wholeSegment? (s : List Char) : Option Regular :=
  if s = ['*'] then some (.both (.one notSlash) (.many (.one notSlash))) else segment? s

/-! ## Patterns -/

/-- The segment that stands for any number of segments. -/
def anyDepth : List Char := ['*', '*']

/-- A slash and whatever follows it. -/
def below : Regular := .both (.char '/') .anything

/-- The paths that segments select, from where the segments before them end; `slash` says that a
slash is due before the next one. -/
def paths? (slash : Bool) : List (List Char) → Option Regular
  | [] => some .empty
  | s :: rest =>
    let lead : Regular := if slash then .char '/' else .empty
    if s = anyDepth then
      if rest = [] then some below
      else (paths? true rest).map (.follow (.optional (.both (.char '/') .something)))
    else
      match wholeSegment? s with
      | none => none
      | some r =>
        if rest = [] then some (.follow lead (.follow r (.optional below)))
        else (paths? true rest).map (.follow (.follow lead r))

/-- The paths that all segments of a pattern select; `insideOnly` says that the pattern ends in a
slash. -/
def selected? (insideOnly : Bool) : List (List Char) → Option Regular
  | [] => none
  | s :: rest =>
    if s = anyDepth then
      if rest = [] then some (if insideOnly then .both .something below else .something)
      else (paths? false rest).map (.follow (.optional (.both .something (.char '/'))))
    else paths? false (s :: rest)

/-- Of several segments for any depth, one after the other, keeps one. -/
def collapse : List (List Char) → List (List Char)
  | s :: t :: rest =>
    if s = anyDepth ∧ t = anyDepth then collapse (t :: rest) else s :: collapse (t :: rest)
  | ss => ss

/-- The segments of a pattern as they count from the root: an empty first one is dropped, a single
one gets any depth before it, and an empty last one stands for any depth. -/
def rooted (segments : List (List Char)) : List (List Char) :=
  let segments :=
    match segments with
    | [] :: rest => rest
    | [s] => if s = anyDepth then [s] else [anyDepth, s]
    | [s, []] => if s = anyDepth then [s, []] else [anyDepth, s, []]
    | _ => segments
  collapse
    (if segments.getLast? = some [] then segments.dropLast ++ [anyDepth] else segments)

/-- A pattern that selects paths, to exclude them or not. -/
structure Rule where
  excludes : Bool
  paths : Regular
  deriving Repr, DecidableEq

/-- A pattern that cannot be read. -/
structure PatternError where
  pattern : String
  deriving Repr, DecidableEq

/-- The wording of the error. -/
def PatternError.message (e : PatternError) : String :=
  "Invalid git pattern: " ++ display e.pattern

/-- A pattern without the blanks at its end, unless the last one is escaped. -/
def stripped (pattern : String) : String :=
  if pattern.endsWith "\\ " then pattern else trimEnd pattern

/-- Reads a pattern. A blank one, a comment and a lone slash are no patterns. -/
def rule? (pattern : String) : Except PatternError (Option Rule) :=
  let s := (stripped pattern).toList
  if s = [] ∨ s.head? = some '#' ∨ s = ['/'] then .ok none
  else
    let (excludes, body) :=
      match s with
      | '!' :: rest => (false, rest)
      | _ => (true, s)
    let segments := Name.segments body
    match selected? (segments.getLast? = some []) (rooted segments) with
    | some paths => .ok (some ⟨excludes, paths⟩)
    | none => .error ⟨pattern⟩

/-- Reads a list of patterns. -/
def rules (patterns : List String) : Except PatternError (List Rule) := do
  return (← patterns.mapM rule?).filterMap id

/-! ## Selecting -/

/-- A path as patterns see it: relative to the root. -/
def relative : List Char → List Char
  | '/' :: rest => rest
  | '.' :: '/' :: rest => rest
  | s => s

/-- Whether a list of patterns excludes a path: the last one that selects it decides. -/
def excludes (rules : List Rule) (path : String) : Bool :=
  match rules.reverse.find? (·.paths.accepts (relative path.toList)) with
  | some r => r.excludes
  | none => false

/-- Without patterns nothing is excluded. -/
@[simp] theorem excludes_nil (path : String) : excludes [] path = false := rfl

end Glob

end Stencil

import Stencil.Text.CharRange
import Stencil.Yaml.Token

/-!
# YAML documents

A document is read token by token, with the lists and mappings that are still open kept on a stack,
innermost first. In block style the column of a token that begins its line says which blocks it
ends: all that begin further to the right. In flow style columns do not count.

A text holds at most one document; an empty text is null.

## Main definitions

* `Yaml.Frame` is a list or a mapping that is still open, or the document itself.
* `Yaml.unwind` ends blocks, `Yaml.place` puts a token where it belongs.
* `Yaml.read` reads the value of a document.

## Main results

* `Yaml.Frame.value_sequence`: a list in block style whose last dash has nothing behind it ends in
  null.
-/

namespace Stencil

namespace Yaml

/-- Where an issue was found. -/
structure Fault where
  issue : Issue
  place : Place
  deriving Repr, Inhabited

/-- The wording of a fault. -/
def Fault.message (f : Fault) : String :=
  f.issue.message ++ " (line " ++ toString f.place.line ++ ", column " ++
    toString f.place.column ++ ")"

/-- How far a document has come. -/
inductive Stage
  /-- No marker yet. -/
  | unmarked
  /-- Behind the marker at its beginning. -/
  | begun
  /-- Behind the marker at its end. -/
  | ended
  deriving Repr, DecidableEq

/-- Something that is still open. Items and entries are kept last one first. -/
inductive Frame
  | document (stage : Stage) (root : Option Value)
  /-- A list in block style; `due` says that a dash has nothing behind it yet, and `flush` that
  the list begins at the column of the mapping around it. -/
  | sequence (column : Nat) (flush : Bool) (items : List Value) (due : Bool)
  /-- A mapping in block style, with a key that has no value yet. -/
  | mapping (column : Nat) (entries : List (Value × Value)) (key : Option Value)
  /-- A list in flow style; an item may be a mapping of one entry, whose key comes first. -/
  | flowList (items : List Value) (key : Option Value) (due : Bool)
  /-- A mapping in flow style. -/
  | flowMapping (entries : List (Value × Value)) (key : Option Value) (due : Bool)
  deriving Repr, Inhabited

namespace Frame

/-- The column of a block. -/
def column? : Frame → Option Nat
  | sequence column _ _ _ => some column
  | mapping column _ _ => some column
  | _ => none

/-- What is open around the tokens inside a frame. -/
def context : Frame → Context
  | document _ _ => .block 0
  | sequence column _ _ _ => .block column
  | mapping column _ _ => .block column
  | flowList _ _ _ => .flowList
  | flowMapping _ _ _ => .flowMapping

/-- An entry added to a mapping; a key may occur once. -/
def addEntry (entries : List (Value × Value)) (key value : Value) :
    Except Issue (List (Value × Value)) :=
  if entries.any fun e => e.1.same key then .error (.duplicateKey key)
  else .ok ((key, value) :: entries)

/-- The value of a frame that ends here. -/
def value : Frame → Except Issue Value
  | document _ root => .ok (root.getD .null)
  | sequence _ _ items due => .ok (.list ((if due then [Value.null] else []) ++ items).reverse)
  | mapping _ entries none => .ok (.dict entries.reverse)
  | mapping _ entries (some key) => do
    return .dict (← addEntry entries key .null).reverse
  | flowList items none _ => .ok (.list items.reverse)
  | flowList items (some key) _ => .ok (.list (.dict [(key, .null)] :: items).reverse)
  | flowMapping entries none _ => .ok (.dict entries.reverse)
  | flowMapping entries (some key) _ => do
    return .dict (← addEntry entries key .null).reverse

/-- A list in block style whose last dash has nothing behind it ends in null. -/
theorem value_sequence (column : Nat) (flush : Bool) (items : List Value) :
    (sequence column flush items true).value = .ok (.list (items.reverse ++ [.null])) := by
  simp [value]

/-- Puts a value into the place that is due. -/
def fill (v : Value) : Frame → Except Issue Frame
  | document stage none => .ok (document stage (some v))
  | sequence column flush items true => .ok (sequence column flush (v :: items) false)
  | mapping column entries (some key) => do
    return mapping column (← addEntry entries key v) none
  | flowList items none true => .ok (flowList (v :: items) none false)
  | flowList items (some key) _ => .ok (flowList (.dict [(key, v)] :: items) none false)
  | flowMapping entries (some key) _ => do
    return flowMapping (← addEntry entries key v) none false
  | _ => .error .misplacedToken

/-- What may stand where a token is. -/
inductive Slot
  /-- No value. -/
  | nothing
  /-- A scalar, or a collection in flow style. -/
  | inline
  /-- Any value. -/
  | anything
  deriving Repr, DecidableEq

/-- What may stand at a column; `first` says that it begins its line. Behind the key of a mapping a
block needs a line of its own, behind a dash it does not. -/
def slot (first : Bool) (column : Nat) : Frame → Slot
  | document .ended _ => .nothing
  | document _ none => if first then .anything else .inline
  | sequence indent _ _ true => if first && column ≤ indent then .nothing else .anything
  | mapping indent _ (some _) =>
    if first then (if column ≤ indent then .nothing else .anything) else .inline
  | flowList _ none true => .inline
  | flowList _ (some _) _ => .inline
  | flowMapping _ (some _) _ => .inline
  | _ => .nothing

/-- A comma behind an entry in flow style. -/
def comma : Frame → Except Issue Frame
  | flowList items none false => .ok (flowList items none true)
  | flowList items (some key) _ => .ok (flowList (.dict [(key, .null)] :: items) none true)
  | flowMapping entries none false => .ok (flowMapping entries none true)
  | flowMapping entries (some key) _ => do
    return flowMapping (← addEntry entries key .null) none true
  | _ => .error .misplacedToken

end Frame

/-! ## Ending blocks -/

/-- Puts a value into the innermost frame. -/
def put (v : Value) : List Frame → Except Issue (List Frame)
  | f :: below => do return (← f.fill v) :: below
  | [] => .error .misplacedToken

/-- Ends the blocks that `ends` says, from the innermost one outwards; the value of one that has
ended goes into the next. -/
def endWhile (ends : Frame → Bool) : Option Value → List Frame → Except Issue (List Frame)
  | _, [] => .ok []
  | v, f :: below => do
    let f ←
      match v with
      | some v => f.fill v
      | none => .ok f
    if ends f then endWhile ends (some (← f.value)) below else return f :: below

/-- Ends the blocks that begin to the right of a column. -/
def unwind (column : Nat) (stack : List Frame) : Except Issue (List Frame) :=
  endWhile (fun f => f.column?.any fun c => column < c) none stack

/-- Ends every block; nothing in flow style may be open. -/
def closeAll (stack : List Frame) : Except Issue (List Frame) := do
  match ← unwind 0 stack with
  | .document stage root :: below => return .document stage root :: below
  | _ => throw .unclosedFlow

/-! ## Placing tokens -/

/-- Places a dash. -/
def placeDash (first : Bool) (column : Nat) : List Frame → Except Issue (List Frame)
  | .sequence indent flush items due :: below =>
    if first && column = indent then
      .ok (.sequence indent flush ((if due then [Value.null] else []) ++ items) true :: below)
    else if due then .ok (.sequence column false [] true :: .sequence indent flush items due :: below)
    else .error .misplacedToken
  | f :: below =>
    if f.slot first column = .anything then .ok (.sequence column false [] true :: f :: below)
    else
      match f with
      | .mapping indent _ (some _) =>
        if first && column = indent then .ok (.sequence column true [] true :: f :: below)
        else .error .misplacedToken
      | _ => .error .misplacedToken
  | [] => .error .misplacedToken

/-- Places a key. -/
def placeKey (first : Bool) (column : Nat) (key : Value) : List Frame → Except Issue (List Frame)
  | f :: below =>
    if f.slot first column = .anything then .ok (.mapping column [] (some key) :: f :: below)
    else
      match f with
      | .mapping indent entries pending =>
        if first && column = indent then do
          let entries ←
            match pending with
            | some k => Frame.addEntry entries k .null
            | none => .ok entries
          return .mapping indent entries (some key) :: below
        else .error .misplacedToken
      | .flowList items none true => .ok (.flowList items (some key) false :: below)
      | .flowMapping entries none true => .ok (.flowMapping entries (some key) false :: below)
      | _ => .error .misplacedToken
  | [] => .error .misplacedToken

/-- Places a scalar; in a mapping in flow style, one without a colon is a key whose value is
null. -/
def placeScalar (first : Bool) (column : Nat) (v : Value) : List Frame → Except Issue (List Frame)
  | .flowMapping entries none true :: below => do
    return .flowMapping (← Frame.addEntry entries v .null) none false :: below
  | f :: below => if f.slot first column = .nothing then .error .misplacedToken else put v (f :: below)
  | [] => .error .misplacedToken

/-- Places the beginning of a collection in flow style. -/
def placeOpen (first : Bool) (column : Nat) (collection : Frame) :
    List Frame → Except Issue (List Frame)
  | f :: below =>
    if f.slot first column = .nothing then .error .misplacedToken else .ok (collection :: f :: below)
  | [] => .error .misplacedToken

/-- Ends the list in block style that begins at the column of the mapping around it, unless a dash
goes on with it. -/
def endFlush (first : Bool) (column : Nat) (stack : List Frame) : Except Issue (List Frame) :=
  match stack with
  | .sequence indent true _ _ :: _ =>
    if first && column = indent then
      endWhile (fun f => f matches .sequence _ true _ _) none stack
    else .ok stack
  | _ => .ok stack

/-- Puts a token where it belongs. -/
def place (first : Bool) (column : Nat) (t : Token) (stack : List Frame) :
    Except Issue (List Frame) :=
  match t with
  | .dash => placeDash first column stack
  | .key k => do placeKey first column k (← endFlush first column stack)
  | .scalar v => placeScalar first column v stack
  | .openList => placeOpen first column (.flowList [] none true) stack
  | .openMapping => placeOpen first column (.flowMapping [] none true) stack
  | .closeList =>
    match stack with
    | .flowList items key due :: below => do put (← (Frame.flowList items key due).value) below
    | _ => .error .misplacedToken
  | .closeMapping =>
    match stack with
    | .flowMapping entries key due :: below => do
      put (← (Frame.flowMapping entries key due).value) below
    | _ => .error .misplacedToken
  | .comma =>
    match stack with
    | f :: below => do return (← f.comma) :: below
    | [] => .error .misplacedToken
  | .documentStart =>
    match stack with
    | [.document .unmarked none] => .ok [.document .begun none]
    | _ => .error .misplacedToken
  | .documentEnd => do
    match ← closeAll stack with
    | [.document _ root] => return [.document .ended root]
    | _ => throw .misplacedToken

/-! ## Reading -/

/-- What is open around the next token. -/
def contextOf (stack : List Frame) : Context :=
  match stack with
  | f :: _ => f.context
  | [] => .block 0

/-- The stack and the token at the front of `c :: rest`, once the blocks that it ends have ended,
and the number of characters it takes. -/
def step (first : Bool) (column : Nat) (c : Char) (rest : List Char) (stack : List Frame) :
    Except Issue (List Frame × Nat) := do
  let stack ←
    if first && !(contextOf stack).isFlow then unwind column stack else .ok stack
  let (t, n) ← tokenAt (contextOf stack) column c rest
  return (← place first column t stack, n)

/-- Reads the tokens of a text that begins at the cursor `k`, inside the frames `stack`; `first`
says that no token of this line has been read. The answer is what is open at the end, and the place
of the end. -/
def readTokens (stack : List Frame) (first : Bool) (k : Cursor) (s : List Char) :
    Except Fault (List Frame × Place) :=
  let gap := s.take (blankLength (contextOf stack).isFlow false s)
  let k := k.across gap
  match _h : s.drop (blankLength (contextOf stack).isFlow false s) with
  | [] => .ok (stack, k.place)
  | c :: rest =>
    match step (first || gap.contains '\n') k.place.column c rest stack with
    | .error issue => .error ⟨issue, k.place⟩
    | .ok (stack, n) =>
      readTokens stack false (k.across (c :: rest.take (n - 1))) (rest.drop (n - 1))
termination_by s.length
decreasing_by
  have := congrArg List.length _h
  simp only [List.length_drop, List.length_cons] at this ⊢
  omega

/-- The characters that a document may contain. -/
def printableRanges : List CharRange := CharRange.table
  [(0x9, 0xA), (0xD, 0xD), (0x20, 0x7E), (0x85, 0x85), (0xA0, 0xD7FF), (0xE000, 0xFFFD),
    (0x10000, 0x10FFFF)]

/-- The text with a line feed for every line break. -/
def unifyBreaks : List Char → List Char
  | [] => []
  | '\r' :: '\n' :: rest => '\n' :: unifyBreaks rest
  | '\r' :: rest => '\n' :: unifyBreaks rest
  | '\u0085' :: rest => '\n' :: unifyBreaks rest
  | c :: rest => c :: unifyBreaks rest

/-- The text without the mark of the byte order in front of it. -/
def withoutMark : List Char → List Char
  | '\ufeff' :: rest => rest
  | s => s

/-- Reads the value of a document. -/
def read (text : String) : Except Fault Value := do
  let s := unifyBreaks text.toList
  if !s.all (CharRange.covers printableRanges) then throw ⟨.unprintable, Cursor.start.place⟩
  let (stack, stop) ← readTokens [.document .unmarked none] true .start (withoutMark s)
  match closeAll stack with
  | .ok (.document _ root :: _) => return root.getD .null
  | .ok _ => throw ⟨.misplacedToken, stop⟩
  | .error issue => throw ⟨issue, stop⟩

end Yaml

end Stencil

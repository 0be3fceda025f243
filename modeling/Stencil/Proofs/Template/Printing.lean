import Stencil.Proofs.Template.WellFormed

/-!
# Canonical forms of elements are cut into their pieces

The canonical form of a well-formed element is cut into pieces which form the element again: texts
end at the marker behind them, the inside of a tag is scanned into the tokens of its expressions,
and a conditional stands between its tags. Only texts need something of what follows: they go on up
to the next marker, so no other text may stand there.

## Main definitions

* `Cuts k text rest ps` says that cutting `text`, with `rest` behind it, gives the pieces `ps` and
  no comments.

## Main results

* `cut_text`, `cut_interpolation`, `cut_directive` and `cut_endTag` are the pieces of each kind.
* `Element.cuts_canonicalAll`: a canonical form is cut into pieces that form the same elements.
-/

namespace Stencil

/-! ## Pieces of each kind -/

section

variable {k : Nat} {rest : List Char}

theorem cut_text {s : List Char} (hne : s ≠ []) (hs : Unmarked s) (hrest : AtMarker rest) :
    cut k (s ++ rest) = .ok (some (.text (String.ofList s)), s.length) := by
  obtain ⟨c, cs, rfl⟩ := List.exists_cons_of_ne_nil hne
  have hmarker := markerAt_append (unmarked_cons.mp hs).1 hrest
  have hlength := textLength_append hs hrest
  rw [cut, hmarker]
  simp only [hlength, List.take_left]

/-- A scan that reaches a stop token ends there. -/
theorem Scans.stop {stops : List String} {position : Nat} {inner : List Char} {ts us : List Token}
    {after : Nat} (h : Scans stops 0 0 position inner rest ts)
    (hstop : scan stops 0 (position + inner.length) rest = .ok (us, after)) :
    scanInside stops position (inner ++ rest) = .ok (ts ++ us, after) := by
  rw [scanInside_eq_ok, h, hstop]
  rfl

theorem scan_brace (position : Nat) (rest : List Char) :
    scan ["\x7d"] 0 position ('\x7d' :: rest) =
      .ok ([⟨.symbol, "\x7d", position⟩], position + 1) := by
  have hmunch : munch '\x7d' rest = some (.token .symbol, 0) := rfl
  exact scan_stop hmunch rfl position

/-- The mark that ends a tag. -/
def closeMark (selfClosing : Bool) : List Char := if selfClosing then ['/', '>'] else ['>']

theorem scan_closeMark (selfClosing : Bool) (position : Nat) (rest : List Char) :
    scan [">", "/>"] 0 position (closeMark selfClosing ++ rest) =
      .ok ([⟨.tagEnd, String.ofList (closeMark selfClosing), position⟩],
        position + (closeMark selfClosing).length) := by
  cases selfClosing with
  | false =>
    have hmunch : munch '>' rest = some (.token .tagEnd, 0) := rfl
    exact scan_stop hmunch rfl position
  | true =>
    have hmunch : munch '/' ('>' :: rest) = some (.token .tagEnd, 1) := rfl
    exact scan_stop hmunch rfl position

/-- An interpolation, from the tokens of its inside. -/
theorem cut_interpolation {inner : List Char} {ts : List Token}
    (h : Scans ["\x7d"] 0 0 (k + 2) inner ('\x7d' :: rest) ts) :
    ∃ stop, cut k ('$' :: '\x7b' :: (inner ++ ['\x7d']) ++ rest) =
      .ok (some (.interpolation (ts ++ [Token.endAt stop])),
        ('$' :: '\x7b' :: (inner ++ ['\x7d'])).length) := by
  have hscan := h.stop (scan_brace _ rest)
  have hcut : cutInterpolation k (inner ++ '\x7d' :: rest) =
      .ok (.interpolation (ts ++ [Token.endAt (k + 2 + inner.length + 1)]), inner.length + 3) := by
    refine bind_eq_ok.mpr ⟨_, hscan, ?_⟩
    simp only [List.getLast?_concat, if_true, inside, List.dropLast_concat]
    refine congrArg (fun n => Except.ok (_, n)) ?_
    omega
  refine ⟨k + 2 + inner.length + 1, ?_⟩
  have hsource : '$' :: '\x7b' :: (inner ++ ['\x7d']) ++ rest =
      '$' :: '\x7b' :: (inner ++ '\x7d' :: rest) := by simp
  rw [hsource]
  refine bind_eq_ok.mpr ⟨_, hcut, ?_⟩
  refine congrArg (fun n => Except.ok (_, n)) ?_
  simp

/-- A name ends where a character that no name goes on with follows. -/
theorem nameLength_append {name : List Char} (h : IsWord name) {rest : List Char}
    (hrest : ∀ c ∈ rest.head?, isNamePart c = false) : nameLength (name ++ rest) = name.length := by
  obtain ⟨hc, hparts⟩ := h
  rw [List.cons_append, nameLength, if_pos hc, takeWhile_run hparts hrest, List.length_cons]

theorem markerAt_tag {c : Char} (hc : isNameStart c = true) (cs : List Char) :
    markerAt ('<' :: '#' :: c :: cs) = some .tag := by
  have hdash : c ≠ '-' := by rintro rfl; exact absurd hc (by decide)
  simp [markerAt, hdash]

/-- A directive tag, from its name and the tokens of its inside. -/
theorem cut_directive {name inner : List Char} {ts : List Token} {selfClosing : Bool}
    (hname : IsWord name)
    (hinner : ∀ c ∈ (inner ++ (closeMark selfClosing ++ rest)).head?, isNamePart c = false)
    (h : Scans [">", "/>"] 0 0 (k + 2 + name.length) inner (closeMark selfClosing ++ rest) ts) :
    ∃ stop, cut k ('<' :: '#' :: (name ++ (inner ++ closeMark selfClosing)) ++ rest) =
      .ok (some (.directive (String.ofList name) (ts ++ [Token.endAt stop]) selfClosing),
        ('<' :: '#' :: (name ++ (inner ++ closeMark selfClosing))).length) := by
  obtain ⟨stop, hstop⟩ : ∃ stop, stop = k + 2 + name.length + inner.length +
    (closeMark selfClosing).length := ⟨_, rfl⟩
  have hscan := h.stop (scan_closeMark selfClosing _ rest)
  rw [← hstop] at hscan
  have hcut : cutDirective k (name ++ (inner ++ (closeMark selfClosing ++ rest))) =
      .ok (.directive (String.ofList name) (ts ++ [Token.endAt stop]) selfClosing, stop - k) := by
    have hlength := nameLength_append hname hinner
    have hpos : name.length ≠ 0 := by
      obtain ⟨-, -⟩ := hname
      exact Nat.succ_ne_zero _
    -- the mark that ends the tag tells whether it is self-closing
    have hmark : decide (String.ofList (closeMark selfClosing) = "/>") = selfClosing := by
      cases selfClosing <;> rfl
    unfold cutDirective
    simp only [hlength, if_neg hpos, List.take_left, List.drop_left]
    refine bind_eq_ok.mpr ⟨_, hscan, ?_⟩
    simp only [List.getLast?_concat, if_true, inside, List.dropLast_concat, hmark]
    rfl
  refine ⟨stop, ?_⟩
  have hsource : '<' :: '#' :: (name ++ (inner ++ closeMark selfClosing)) ++ rest =
      '<' :: '#' :: (name ++ (inner ++ (closeMark selfClosing ++ rest))) := by simp
  have hmarker : markerAt ('<' :: '#' :: (name ++ (inner ++ (closeMark selfClosing ++ rest)))) =
      some .tag := by
    obtain ⟨hc, -⟩ := hname
    exact markerAt_tag hc _
  rw [hsource, cut, hmarker]
  refine bind_eq_ok.mpr ⟨_, hcut, ?_⟩
  refine congrArg (fun n => Except.ok (_, n)) ?_
  simp only [List.length_cons, List.length_append]
  omega

/-- The end tag of a name. -/
theorem cut_endTag {name : List Char} (hname : IsWord name) :
    cut k ('<' :: '/' :: '#' :: (name ++ ['>']) ++ rest) =
      .ok (some (.endTag (String.ofList name)), ('<' :: '/' :: '#' :: (name ++ ['>'])).length) := by
  have hcut : cutEndTag (name ++ '>' :: rest) =
      .ok (.endTag (String.ofList name), 3 + name.length + 1) := by
    have hlength : nameLength (name ++ '>' :: rest) = name.length :=
      nameLength_append hname (by rintro c hc; cases hc; decide)
    have hpos : name.length ≠ 0 := by
      obtain ⟨-, -⟩ := hname
      exact Nat.succ_ne_zero _
    have hblank : isBlank '>' = false := by decide
    unfold cutEndTag
    simp only [hlength, if_neg hpos, List.take_left, List.drop_left]
    rw [List.dropWhile_cons_of_neg (by simp [hblank]),
      List.takeWhile_cons_of_neg (by simp [hblank])]
    rfl
  have hsource : '<' :: '/' :: '#' :: (name ++ ['>']) ++ rest =
      '<' :: '/' :: '#' :: (name ++ '>' :: rest) := by simp
  rw [hsource]
  refine bind_eq_ok.mpr ⟨_, hcut, ?_⟩
  refine congrArg (fun n => Except.ok (_, n)) ?_
  simp only [List.length_cons, List.length_append, List.length_nil]
  omega

end

/-! ## Cutting text that is put together from pieces -/

/-- With what follows behind it, the text is cut into slices, which are the sources of the pieces,
and what follows is cut as if it stood there alone. -/
def Cuts (k : Cursor) (text rest : List Char) (ps : List Piece) : Prop :=
  ∃ slices, slices.map Slice.piece? = ps.map some ∧
    ∀ more, Sliced (k.across text) rest more → Sliced k (text ++ rest) (slices ++ more)

namespace Cuts

variable {k : Cursor} {rest : List Char}

theorem nil : Cuts k [] rest [] := ⟨[], rfl, fun _ h => h⟩

theorem append {a b : List Char} {ps qs : List Piece} (ha : Cuts k a (b ++ rest) ps)
    (hb : Cuts (k.across a) b rest qs) : Cuts k (a ++ b) rest (ps ++ qs) := by
  obtain ⟨xs, hxs, hcut⟩ := ha
  obtain ⟨ys, hys, hcut'⟩ := hb
  refine ⟨xs ++ ys, by rw [List.map_append, List.map_append, hxs, hys], ?_⟩
  intro more hmore
  rw [List.append_assoc, List.append_assoc]
  rw [Cursor.across_append] at hmore
  exact hcut _ (hcut' more hmore)

/-- What is cut off as one piece. -/
theorem piece {text : List Char} {kind : PieceKind} (hne : text ≠ [])
    (h : cut k.offset (text ++ rest) = .ok (some kind, text.length)) :
    Cuts k text rest [⟨kind, k.place⟩] :=
  ⟨[⟨text, k, some kind⟩], rfl, fun _ hmore => .cons hne h hmore⟩

/-- A text with nothing behind it is cut into the pieces and no comments. -/
theorem sliced {text : List Char} {ps : List Piece} (h : Cuts k text [] ps) :
    ∃ slices, Sliced k text slices ∧ slices.filterMap Slice.piece? = ps ∧
      ∀ x ∈ slices, x.content ≠ none := by
  obtain ⟨slices, hslices, hcut⟩ := h
  have hsliced := hcut [] (.nil _)
  rw [List.append_nil, List.append_nil] at hsliced
  refine ⟨slices, hsliced, ?_, ?_⟩
  -- every slice is the source of a piece, so none is left out
  · have hpieces := congrArg (List.filterMap id) hslices
    simpa [List.filterMap_map] using hpieces
  · intro x hx hnone
    have hpiece : x.piece? ∈ ps.map some := hslices ▸ List.mem_map_of_mem hx
    rw [Slice.piece?, hnone] at hpiece
    simp at hpiece

end Cuts

/-! ## The insides of tags -/

section

variable {stops : List String} {position : Nat} {rest : List Char}

/-- An expression behind blanks, as tags have it. -/
theorem scans_spaced (hstops : Terminators stops) {blanks : List Char}
    (hblanks : ∀ c ∈ blanks, isBlank c = true) {e : Expr} (he : e.WellFormed)
    (hrest : Boundary rest) (position : Nat) :
    ∃ ts, Derives .disjunction ts e ∧
      Scans stops 0 0 position (blanks ++ e.canonical.toList) rest ts := by
  obtain ⟨c, cs, hcs, hblank, -⟩ := Expr.canonical_head he
  obtain ⟨ts, hder, hscan⟩ :=
    Expr.scans_canonical hstops he 0 (position + blanks.length) hrest
  refine ⟨ts, hder.weaken, (Scans.blanks hblanks ?_).append hscan⟩
  rw [hcs]
  rintro d hd
  cases hd
  exact hblank

/-- A word in front of an equals sign, behind blanks. -/
theorem scans_word (hstops : Terminators stops) {blanks : List Char}
    (hblanks : ∀ c ∈ blanks, isBlank c = true) {word : List Char} (hword : IsWord word)
    (hrest : Boundary rest) (position : Nat) :
    ∃ p, Scans stops 0 0 position (blanks ++ word) rest
      [⟨if isKeyword word then .keyword else .identifier, String.ofList word, p⟩] := by
  refine ⟨_, (Scans.blanks hblanks ?_).append
    (Scans.inner hstops (lexes_word hword hrest) hword.inner)⟩
  obtain ⟨hc, -⟩ := hword
  rintro d hd
  cases hd
  exact isBlank_of_isNameStart hc

/-- An attribute as it is written in a tag: blanks, a name, an equals sign and an expression. -/
structure WrittenAttribute where
  blanks : List Char
  name : String
  value : Expr

namespace WrittenAttribute

/-- The attribute stands behind at least one blank, its name is a word, and its expression respects
the levels of the grammar. -/
def WellFormed (a : WrittenAttribute) : Prop :=
  a.blanks ≠ [] ∧ (∀ c ∈ a.blanks, isBlank c = true) ∧ IsWord a.name.toList ∧ a.value.WellFormed

/-- The text of an attribute, its expression in canonical form. -/
def text (a : WrittenAttribute) : List Char :=
  (a.blanks ++ a.name.toList) ++ (['='] ++ a.value.canonical.toList)

/-- What an attribute assigns. -/
def pair (a : WrittenAttribute) : String × Expr := (a.name, a.value)

end WrittenAttribute

theorem boundary_attributes {written : List WrittenAttribute} (hwf : ∀ a ∈ written, a.WellFormed)
    (hrest : Boundary rest) : Boundary (written.flatMap WrittenAttribute.text ++ rest) := by
  cases written with
  | nil => exact hrest
  | cons a written =>
    obtain ⟨hne, hblanks, -⟩ := hwf a List.mem_cons_self
    rw [List.flatMap_cons, WrittenAttribute.text]
    simp only [List.append_assoc]
    exact boundary_gap hne hblanks _

/-- **Written attributes are scanned into tokens that list them**, whatever blanks stand between
them. -/
theorem scans_attributes (hstops : Terminators stops) {written : List WrittenAttribute}
    (hwf : ∀ a ∈ written, a.WellFormed) (hrest : Boundary rest) (position : Nat) :
    ∃ ts, Listed ts (written.map WrittenAttribute.pair) ∧
      Scans stops 0 0 position (written.flatMap WrittenAttribute.text) rest ts := by
  induction written generalizing position with
  | nil => exact ⟨[], .nil, Scans.nil⟩
  | cons a written ih =>
    have hbehind : ∀ b ∈ written, b.WellFormed := fun b hb => hwf b (List.mem_cons_of_mem _ hb)
    obtain ⟨-, hblanks, hword, hvalue⟩ := hwf a List.mem_cons_self
    obtain ⟨c, cs, hcs, -, hsign⟩ := Expr.canonical_head hvalue
    have hafterName : Boundary ((['='] ++ a.value.canonical.toList) ++
        (written.flatMap WrittenAttribute.text ++ rest)) := boundary_cons (by decide)
    obtain ⟨p, hname⟩ := scans_word hstops hblanks hword hafterName position
    have hequals : Lexes .operator ['=']
        (a.value.canonical.toList ++ (written.flatMap WrittenAttribute.text ++ rest)) :=
      lexes_single (Or.inr rfl) (by simpa [hcs] using hsign)
    obtain ⟨vs, hder, hscan⟩ := Expr.scans_canonical hstops hvalue 0
      (position + (a.blanks ++ a.name.toList).length + ['='].length)
      (boundary_attributes hbehind hrest)
    obtain ⟨ts, hlisted, hscans⟩ := ih hbehind (position + a.text.length)
    rw [String.ofList_toList] at hname
    have hlist : Listed (⟨if isKeyword a.name.toList then .keyword else .identifier, a.name, p⟩ ::
        ⟨.operator, "=", position + (a.blanks ++ a.name.toList).length⟩ :: (vs ++ ts))
        ((a.name, a.value) :: written.map WrittenAttribute.pair) :=
      .cons rfl (Token.isOperator_self _ _) hder.weaken hlisted
    refine ⟨_, hlist, ?_⟩
    exact (hname.append ((Scans.inner hstops hequals (.head (by decide) _)).append hscan)).append
      hscans

end

theorem IncludeAttribute.isWord_name (a : IncludeAttribute) : IsWord a.name.toList := by
  cases a <;> decide

/-! ## Tags of inclusions -/

/-- The tag of an inclusion as it is written: the target and the attributes, with blanks in front of
each and perhaps behind the last one. -/
structure WrittenInclusion where
  blanks : List Char
  target : Expr
  attributes : List WrittenAttribute
  after : List Char
  selfClosing : Bool

namespace WrittenInclusion

/-- Target and attributes stand behind blanks and respect the grammar. -/
def WellFormed (t : WrittenInclusion) : Prop :=
  (t.blanks ≠ [] ∧ ∀ c ∈ t.blanks, isBlank c = true) ∧ t.target.WellFormed ∧
    (∀ a ∈ t.attributes, a.WellFormed) ∧ ∀ c ∈ t.after, isBlank c = true

/-- The text between the name of the tag and the mark that ends it. -/
def inner (t : WrittenInclusion) : List Char :=
  (t.blanks ++ t.target.canonical.toList) ++
    (t.attributes.flatMap WrittenAttribute.text ++ t.after)

/-- The text of the tag. -/
def text (t : WrittenInclusion) : List Char :=
  '<' :: '#' :: ("include".toList ++ (t.inner ++ closeMark t.selfClosing))

end WrittenInclusion

/-- The tag that an inclusion is written as: one blank in front of the target and of each
attribute. -/
def Inclusion.tag (i : Inclusion) : WrittenInclusion :=
  ⟨[' '], i.target, i.written.map fun a => ⟨[' '], a.1.name, a.2⟩, [], true⟩

/-! ## Written forms as lists of characters -/

namespace Element

theorem toList_canonical_interpolation (place : Place) (e : Expr) :
    (interpolation place e).canonical.toList =
      '$' :: '\x7b' :: (e.canonical.toList ++ ['\x7d']) := by
  simp [canonical]

theorem toList_canonical_assign (place : Place) (scope : AssignScope) (name : String) (e : Expr) :
    (assign place scope name e).canonical.toList =
      '<' :: '#' :: (scope.directive.toList ++ (([' '] ++ name.toList) ++
        ([' '] ++ (['='] ++ ([' '] ++ e.canonical.toList))) ++ closeMark true)) := by
  simp [canonical, assignText, closeMark]

theorem toList_canonical_inclusion (place : Place) (i : Inclusion) :
    (inclusion place i).canonical.toList = i.tag.text := by
  simp [canonical, inclusionText, closeMark, Inclusion.tag, WrittenInclusion.text,
    WrittenInclusion.inner, WrittenAttribute.text, String.toList_join, List.flatMap_map]

/-- The opening tag of a conditional. -/
def openingText (c : Expr) : List Char :=
  '<' :: '#' :: ("if".toList ++ (([' '] ++ c.canonical.toList) ++ closeMark false))

/-- The tag between the branches of a conditional. -/
def dividerText : List Char := '<' :: '#' :: ("else".toList ++ ([] ++ closeMark false))

/-- The end tag of a conditional. -/
def closingText : List Char := '<' :: '/' :: '#' :: ("if".toList ++ ['>'])

theorem toList_canonical_conditional (place : Place) (c : Expr) (body : List Element) :
    (conditional place c body none).canonical.toList =
      openingText c ++ ((canonicalAll body).toList ++ closingText) := by
  simp [canonical, openingText, closingText, closeMark]

theorem toList_canonical_branches (place : Place) (c : Expr) (body otherwise : List Element) :
    (conditional place c body (some otherwise)).canonical.toList =
      openingText c ++ ((canonicalAll body).toList ++
        (dividerText ++ ((canonicalAll otherwise).toList ++ closingText))) := by
  simp [canonical, openingText, dividerText, closingText, closeMark]

/-- What is no text begins with a marker. -/
theorem atMarker_canonical {e : Element} (h : e.isText = false) (rest : List Char) :
    AtMarker (e.canonical.toList ++ rest) := by
  refine Or.inr (isSome_markerAt.mpr ?_)
  cases e with
  | text => cases h
  | interpolation place e =>
    exact ⟨['$', '\x7b'], by decide, _, by rw [toList_canonical_interpolation]; rfl⟩
  | conditional place c body otherwise =>
    cases otherwise with
    | none => exact ⟨['<', '#'], by decide, _, by rw [toList_canonical_conditional]; rfl⟩
    | some otherwise => exact ⟨['<', '#'], by decide, _, by rw [toList_canonical_branches]; rfl⟩
  | assign place scope name e =>
    exact ⟨['<', '#'], by decide, _, by rw [toList_canonical_assign]; rfl⟩
  | inclusion place i =>
    exact ⟨['<', '#'], by decide, _, by rw [toList_canonical_inclusion]; rfl⟩

theorem atMarker_closingText (rest : List Char) : AtMarker (closingText ++ rest) := Or.inr rfl

theorem atMarker_dividerText (rest : List Char) : AtMarker (dividerText ++ rest) := Or.inr rfl

end Element

/-! ## Tags of elements -/

section

variable {k : Cursor} {rest : List Char} {c e : Expr}

theorem terminators_brace : Terminators ["\x7d"] := by decide

theorem terminators_tagEnd : Terminators [">", "/>"] := by decide

theorem boundary_closeMark (selfClosing : Bool) (rest : List Char) :
    Boundary (closeMark selfClosing ++ rest) := by
  cases selfClosing <;> exact boundary_cons (by decide)

/-- A tag as it is written: the name of its directive, and an inside that begins with a blank. -/
theorem cuts_directive {name : String} {inner : List Char} {selfClosing : Bool} {ts : List Token}
    (hname : IsWord name.toList)
    (h : Scans [">", "/>"] 0 0 (k.offset + 2 + name.toList.length) ([' '] ++ inner)
      (closeMark selfClosing ++ rest) ts) :
    ∃ stop, Cuts k ('<' :: '#' :: (name.toList ++ (([' '] ++ inner) ++ closeMark selfClosing))) rest
      [⟨.directive name (ts ++ [Token.endAt stop]) selfClosing, k.place⟩] := by
  obtain ⟨stop, hcut⟩ := cut_directive hname (by rintro d hd; cases hd; decide) h
  rw [String.ofList_toList] at hcut
  exact ⟨stop, Cuts.piece (List.cons_ne_nil _ _) hcut⟩

/-- An interpolation is cut into a piece that denotes it. -/
theorem cuts_interpolation (place : Place) (he : e.WellFormed) :
    ∃ p, Cuts k (Element.interpolation place e).canonical.toList rest [p] ∧
      p.part = .leaf (.ok (.interpolation k.place e)) := by
  have hbrace : Boundary ('\x7d' :: rest) := boundary_cons (by decide)
  obtain ⟨ts, hder, hscan⟩ :=
    Expr.scans_canonical terminators_brace he 0 (k.offset + 2) hbrace
  obtain ⟨stop, hcut⟩ := cut_interpolation hscan
  rw [Element.toList_canonical_interpolation]
  refine ⟨_, Cuts.piece (List.cons_ne_nil _ _) hcut, ?_⟩
  change Part.leaf ((wholeExpression (ts ++ [Token.endAt stop])).map _) = _
  rw [wholeExpression_of_derives hder.weaken]
  rfl

/-- An opening tag is cut into a piece that denotes it. -/
theorem cuts_opening (hc : c.WellFormed) :
    ∃ p, Cuts k (Element.openingText c) rest [p] ∧ p.part = .opening (.ok c) := by
  have hword : IsWord "if".toList := by decide
  obtain ⟨ts, hder, hscan⟩ := scans_spaced terminators_tagEnd isBlank_space hc
    (boundary_closeMark false rest) (k.offset + 2 + "if".toList.length)
  obtain ⟨stop, hcuts⟩ := cuts_directive hword hscan
  refine ⟨_, hcuts, ?_⟩
  change Part.opening (wholeExpression (ts ++ [Token.endAt stop])) = _
  rw [wholeExpression_of_derives hder]

/-- The tag between two branches is cut into a piece that divides them. -/
theorem cuts_divider : ∃ p, Cuts k Element.dividerText rest [p] ∧ p.part = .divider false := by
  have hword : IsWord "else".toList := by decide
  have hscan : Scans [">", "/>"] 0 0 (k.offset + 2 + "else".toList.length) []
    (closeMark false ++ rest) [] := Scans.nil
  obtain ⟨stop, hcut⟩ := cut_directive hword (by rintro d hd; cases hd; decide) hscan
  rw [String.ofList_toList] at hcut
  exact ⟨_, Cuts.piece (List.cons_ne_nil _ _) hcut, rfl⟩

/-- The end tag of a conditional is cut into a piece that closes it. -/
theorem cuts_closing : ∃ p, Cuts k Element.closingText rest [p] ∧ p.part = .closing "if" := by
  have hword : IsWord "if".toList := by decide
  exact ⟨_, Cuts.piece (List.cons_ne_nil _ _) (cut_endTag hword), rfl⟩

/-- An assignment is cut into a piece that denotes it. -/
theorem cuts_assign (place : Place) {scope : AssignScope} {name : String}
    (hname : IsName name.toList) (he : e.WellFormed) :
    ∃ p, Cuts k (Element.assign place scope name e).canonical.toList rest [p] ∧
      p.part = .leaf (.ok (.assign k.place scope name e)) := by
  have hword : IsWord scope.directive.toList := by
    cases scope <;> decide
  have hafterName : Boundary (([' '] ++ (['='] ++ ([' '] ++ e.canonical.toList))) ++
      (closeMark true ++ rest)) := boundary_cons (by decide)
  have hequals : Lexes .operator ['=']
      (([' '] ++ e.canonical.toList) ++ (closeMark true ++ rest)) :=
    lexes_single (Or.inr rfl) (by simp)
  obtain ⟨p, hscanName⟩ := scans_word terminators_tagEnd isBlank_space hname.1 hafterName
    (k.offset + 2 + scope.directive.toList.length)
  rw [hname.2, if_neg Bool.false_ne_true] at hscanName
  obtain ⟨ts, hder, hvalue⟩ := scans_spaced terminators_tagEnd isBlank_space he
    (boundary_closeMark true rest)
    (k.offset + 2 + scope.directive.toList.length + ([' '] ++ name.toList).length + [' '].length +
      ['='].length)
  -- a blank and the name, a blank and the equals sign, a blank and the value
  have hscan := hscanName.append ((Scans.blank (by rintro d hd; cases hd; decide)).append
    ((Scans.inner terminators_tagEnd hequals (.head (by decide) _)).append hvalue))
  rw [List.append_assoc] at hscan
  obtain ⟨stop, hcuts⟩ := cuts_directive hword hscan
  rw [Element.toList_canonical_assign, List.append_assoc [' '] name.toList]
  refine ⟨_, hcuts, ?_⟩
  have hread : ∀ q, assignment scope.directive
      (⟨.identifier, String.ofList name.toList, p⟩ :: ⟨.operator, "=", q⟩ :: ts ++
        [Token.endAt stop]) = .ok (name, e) := by
    intro q
    rw [String.ofList_toList]
    exact assignment_of_derives scope.directive rfl (Token.isOperator_self q "=") hder
  cases scope <;>
  · refine congrArg Part.leaf ?_
    exact map_eq_ok.mpr ⟨_, hread _, rfl⟩

/-- The attributes that an inclusion lists are those that are written. -/
theorem lookup_written (i : Inclusion) :
    i.written.lookup .encoding = i.encoding.expression ∧
      i.written.lookup .parse = i.parse.expression ∧
      i.written.lookup .ignoreMissing = i.ignoreMissing.expression := by
  rw [Inclusion.written]
  cases i.encoding.expression <;> cases i.parse.expression <;>
    cases i.ignoreMissing.expression <;> exact ⟨rfl, rfl, rfl⟩

theorem nodup_written (i : Inclusion) : (i.written.map Prod.fst).Nodup := by
  rw [Inclusion.written]
  cases i.encoding.expression <;> cases i.parse.expression <;>
    cases i.ignoreMissing.expression <;> simp

/-- **The tag of an inclusion is one piece**, whose tokens are those of its target and of its
attributes. -/
theorem cut_inclusion {k : Nat} {t : WrittenInclusion} (ht : t.WellFormed) (rest : List Char) :
    ∃ us vs stop, Derives .disjunction us t.target ∧
      Listed vs (t.attributes.map WrittenAttribute.pair) ∧
      cut k (t.text ++ rest) =
        .ok (some (.directive "include" (us ++ vs ++ [Token.endAt stop]) t.selfClosing),
          t.text.length) := by
  obtain ⟨⟨hne, hblanks⟩, htarget, hattributes, hafter⟩ := ht
  have hword : IsWord "include".toList := by decide
  have hmark : Boundary (closeMark t.selfClosing ++ rest) := boundary_closeMark t.selfClosing rest
  have hmarkBlank : ∀ c ∈ (closeMark t.selfClosing ++ rest).head?, isBlank c = false := by
    cases t.selfClosing <;> (rintro c hc; cases hc; decide)
  have hbehind : Boundary (t.attributes.flatMap WrittenAttribute.text ++ t.after ++
      (closeMark t.selfClosing ++ rest)) := by
    rw [List.append_assoc]
    exact boundary_attributes hattributes (boundary_blanks hafter hmark)
  obtain ⟨us, hder, hscanTarget⟩ := scans_spaced terminators_tagEnd hblanks htarget hbehind
    (k + 2 + "include".toList.length)
  obtain ⟨vs, hlisted, hscanAttributes⟩ := scans_attributes terminators_tagEnd hattributes
    (boundary_blanks hafter hmark)
    (k + 2 + "include".toList.length + (t.blanks ++ t.target.canonical.toList).length)
  have hscan := hscanTarget.append (hscanAttributes.append (Scans.blanks hafter hmarkBlank))
  rw [List.append_nil] at hscan
  -- the first blank ends the name of the directive
  have hname : ∀ c ∈ (t.inner ++ (closeMark t.selfClosing ++ rest)).head?,
      isNamePart c = false := by
    intro c hc
    rw [WrittenInclusion.inner] at hc
    simp only [List.append_assoc] at hc
    exact (boundary_gap hne hblanks _ c hc).1
  obtain ⟨stop, hcut⟩ := cut_directive hword hname hscan
  rw [String.ofList_toList] at hcut
  exact ⟨us, vs, stop, hder, hlisted, hcut⟩

theorem Inclusion.WellFormed.tag {i : Inclusion} (h : i.WellFormed) : i.tag.WellFormed := by
  obtain ⟨htarget, hwritten, -⟩ := h
  refine ⟨⟨List.cons_ne_nil _ _, isBlank_space⟩, htarget, ?_, List.forall_mem_nil _⟩
  intro a ha
  obtain ⟨b, hb, rfl⟩ := List.mem_map.mp ha
  exact ⟨List.cons_ne_nil _ _, isBlank_space, b.1.isWord_name, hwritten b hb⟩

/-- An inclusion is cut into a piece that denotes it. -/
theorem cuts_inclusion (place : Place) {i : Inclusion} (hi : i.WellFormed) :
    ∃ p, Cuts k (Element.inclusion place i).canonical.toList rest [p] ∧
      p.part = .leaf (.ok (.inclusion k.place i)) := by
  obtain ⟨us, vs, stop, hder, hlisted, hcut⟩ := cut_inclusion hi.tag rest
  have hnamed : i.tag.attributes.map WrittenAttribute.pair =
      i.written.map IncludeAttribute.named := by
    rw [Inclusion.tag, List.map_map]
    rfl
  have htarget : Derives .disjunction us i.target := hder
  have hattributes : Attributes [] vs i.written := hlisted.attributes hnamed (nodup_written i)
  obtain ⟨hencoding, hparse, hignoreMissing⟩ := lookup_written i
  have hfold := hi.2.2
  rw [← hencoding, ← hparse, ← hignoreMissing] at hfold
  rw [Element.toList_canonical_inclusion]
  refine ⟨_, Cuts.piece (List.cons_ne_nil _ _) hcut, ?_⟩
  change Part.leaf ((inclusionOf (us ++ vs ++ [Token.endAt stop])).map _) = _
  rw [inclusionOf_of_derives htarget hattributes, hfold]
  rfl

end

/-! ## Elements -/

namespace Element

mutual

/-- The canonical form of an element is cut into pieces that form the element again; in front of a
marker, if it is text. -/
theorem cuts_canonical (e : Element) (he : e.WellFormed) (hs : e.Separated) (k : Cursor)
    (rest : List Char) (hrest : e.isText = true → AtMarker rest) :
    ∃ ps f, Cuts k e.canonical.toList rest ps ∧ Forms ps [f] ∧ agrees f e = true := by
  match e with
  | text place s =>
    obtain ⟨hne, hunmarked⟩ := he
    have hlist : s.toList ≠ [] := fun h => hne (String.toList_eq_nil_iff.mp h)
    refine ⟨_, .text k.place s, Cuts.piece hlist (cut_text hlist hunmarked (hrest rfl)),
      .leaf ?_ .nil, ?_⟩
    · rw [String.ofList_toList]
      rfl
    · simp [agrees]
  | interpolation place v =>
    obtain ⟨p, hcuts, hp⟩ := cuts_interpolation place he
    exact ⟨[p], _, hcuts, .leaf hp .nil, by simp [agrees]⟩
  | assign place scope name v =>
    obtain ⟨hname, hv⟩ := he
    obtain ⟨p, hcuts, hp⟩ := cuts_assign place hname hv
    exact ⟨[p], _, hcuts, .leaf hp .nil, by simp [agrees]⟩
  | inclusion place i =>
    obtain ⟨p, hcuts, hp⟩ := cuts_inclusion place he
    exact ⟨[p], _, hcuts, .leaf hp .nil, by simp [agrees]⟩
  | conditional place c body none =>
    obtain ⟨hc, hbody⟩ := he
    rw [toList_canonical_conditional]
    obtain ⟨p, hopening, hp⟩ := cuts_opening hc
    -- a branch may end with text, since a tag stands behind it
    obtain ⟨qs, body', hcuts, hforms, hagrees⟩ := cuts_canonicalAll body hbody hs
      (k.across (openingText c)) (closingText ++ rest) (atMarker_closingText rest)
    obtain ⟨q, hclosing, hq⟩ := cuts_closing
    refine ⟨_, .conditional p.place c body' none, hopening.append (hcuts.append hclosing),
      .conditional hp hforms hq .nil, ?_⟩
    simpa [agrees] using hagrees
  | conditional place c body (some otherwise) =>
    obtain ⟨hc, hbody, hotherwise⟩ := he
    obtain ⟨hbody', hotherwise'⟩ := hs
    rw [toList_canonical_branches]
    obtain ⟨p, hopening, hp⟩ := cuts_opening hc
    obtain ⟨qs, body', hcuts, hforms, hagrees⟩ := cuts_canonicalAll body hbody hbody'
      (k.across (openingText c))
      ((dividerText ++ ((canonicalAll otherwise).toList ++ closingText)) ++ rest)
      (atMarker_dividerText _)
    obtain ⟨d, hdivider, hd⟩ := cuts_divider
    obtain ⟨rs, otherwise', hcuts', hforms', hagrees'⟩ := cuts_canonicalAll otherwise hotherwise
      hotherwise'
      (((k.across (openingText c)).across (canonicalAll body).toList).across dividerText)
      (closingText ++ rest) (atMarker_closingText rest)
    obtain ⟨q, hclosing, hq⟩ := cuts_closing
    refine ⟨_, .conditional p.place c body' (some otherwise'),
      hopening.append (hcuts.append (hdivider.append (hcuts'.append hclosing))),
      .branches hp hforms hd hforms' hq .nil, ?_⟩
    simp [agrees, hagrees, hagrees']

/-- The canonical form of a list of elements is cut into pieces that form the same elements, in
front of a marker. -/
theorem cuts_canonicalAll (es : List Element) (he : AllWellFormed es) (hs : AllSeparated es)
    (k : Cursor) (rest : List Char) (hrest : AtMarker rest) :
    ∃ ps fs, Cuts k (canonicalAll es).toList rest ps ∧ Forms ps fs ∧ agreesAll fs es = true := by
  match es with
  | [] => exact ⟨[], [], Cuts.nil, .nil, rfl⟩
  | e :: es =>
    obtain ⟨hfirst, htail⟩ := he
    obtain ⟨hfirst', hneighbour, htail'⟩ := hs
    have hnext : e.isText = true → AtMarker ((canonicalAll es).toList ++ rest) := by
      intro htext
      cases es with
      | nil => exact hrest
      | cons f es =>
        have hf : f.isText = false := hneighbour htext f rfl
        rw [canonicalAll, String.toList_append, List.append_assoc]
        exact atMarker_canonical hf _
    obtain ⟨ps, f, hcuts, hforms, hagrees⟩ := cuts_canonical e hfirst hfirst' k _ hnext
    obtain ⟨qs, fs, hcuts', hforms', hagrees'⟩ := cuts_canonicalAll es htail htail'
      (k.across e.canonical.toList) rest hrest
    rw [canonicalAll, String.toList_append]
    exact ⟨ps ++ qs, f :: fs, hcuts.append hcuts', hforms.append hforms', by
      simp [agreesAll, hagrees, hagrees']⟩

end

end Element

end Stencil

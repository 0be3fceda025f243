import Stencil.Proofs.Expr.RoundTrip
import Stencil.Proofs.Template.Block
import Stencil.Proofs.Template.Slice
import Stencil.Proofs.Template.Tag

/-!
# Which elements templates have

Elements that are read from a source are well formed: their expressions respect the levels of the
grammar, their texts are not empty and hold no marker, and their attributes are what folding makes
of the written expressions. In a source without comments two texts are never neighbours.

## Main definitions

* `Element.WellFormed` and `Element.AllWellFormed` are the well-formed elements and lists of them.
* `Element.Separated` and `Element.AllSeparated` say that no texts are neighbours, at any depth.

## Main results

* `wellFormed_of_parseTemplate`: what is read from a source is well formed.
* `separated_of_parseTemplate`: what is read from a source without comments is separated.
-/

namespace Stencil

/-- An inclusion with well-formed expressions, whose attributes are folded as the tag that lists
these expressions has them. -/
def Inclusion.WellFormed (i : Inclusion) : Prop :=
  i.target.WellFormed ∧ (∀ a ∈ i.written, a.2.WellFormed) ∧
    fold i.target i.encoding.expression i.parse.expression i.ignoreMissing.expression = .ok i

namespace Element

/-- The element is text. -/
def isText : Element → Bool
  | text _ _ => true
  | _ => false

mutual

/-- An element with well-formed expressions, names that are names, and texts that are not empty and
hold no marker. -/
def WellFormed : Element → Prop
  | text _ s => s ≠ "" ∧ Unmarked s.toList
  | interpolation _ e => e.WellFormed
  | conditional _ c body none => c.WellFormed ∧ AllWellFormed body
  | conditional _ c body (some otherwise) =>
    c.WellFormed ∧ AllWellFormed body ∧ AllWellFormed otherwise
  | assign _ _ name e => IsName name.toList ∧ e.WellFormed
  | inclusion _ i => i.WellFormed

/-- A list of well-formed elements. -/
def AllWellFormed : List Element → Prop
  | [] => True
  | e :: es => WellFormed e ∧ AllWellFormed es

end

theorem wellFormed_of_mem {e : Element} {es : List Element} (h : AllWellFormed es) (he : e ∈ es) :
    e.WellFormed := by
  induction he with
  | head => exact h.1
  | tail _ _ ih => exact ih h.2

mutual

/-- In no branch inside the element are two texts neighbours. -/
def Separated : Element → Prop
  | conditional _ _ body none => AllSeparated body
  | conditional _ _ body (some otherwise) => AllSeparated body ∧ AllSeparated otherwise
  | _ => True

/-- Two texts are neighbours neither in the list nor in any branch inside its elements. -/
def AllSeparated : List Element → Prop
  | [] => True
  | e :: es =>
    Separated e ∧ (e.isText = true → ∀ f ∈ es.head?, f.isText = false) ∧ AllSeparated es

end

end Element

/-! ## Folding -/

/-- Folding keeps the expressions of the tag. -/
theorem Inclusion.expressions_of_fold {target : Expr} {encoding parse ignoreMissing : Option Expr}
    {i : Inclusion} (h : fold target encoding parse ignoreMissing = .ok i) :
    i.target = target ∧ i.encoding.expression = encoding ∧ i.parse.expression = parse ∧
      i.ignoreMissing.expression = ignoreMissing := by
  unfold fold at h
  obtain ⟨a, ha, hbind⟩ := bind_eq_ok.mp h
  obtain ⟨b, hb, hbind'⟩ := bind_eq_ok.mp hbind
  obtain ⟨c, hc, hresult⟩ := bind_eq_ok.mp hbind'
  cases hresult
  exact ⟨rfl, Attr.expression_fold ha, Attr.expression_fold hb, Attr.expression_fold hc⟩

theorem Inclusion.expression_of_written {i : Inclusion} {a : IncludeAttribute × Expr}
    (h : a ∈ i.written) : i.encoding.expression = some a.2 ∨ i.parse.expression = some a.2 ∨
      i.ignoreMissing.expression = some a.2 := by
  obtain ⟨b, hb, hmap⟩ := List.mem_filterMap.mp h
  obtain ⟨e, he, rfl⟩ := Option.map_eq_some_iff.mp hmap
  simp only [List.mem_cons, List.not_mem_nil, or_false] at hb
  rcases hb with rfl | rfl | rfl
  · exact Or.inl he
  · exact Or.inr (Or.inl he)
  · exact Or.inr (Or.inr he)

/-- Folding well-formed expressions gives a well-formed inclusion. -/
theorem Inclusion.wellFormed_of_fold {target : Expr} {given : List (IncludeAttribute × Expr)}
    {i : Inclusion} (htarget : target.WellFormed) (hgiven : ∀ a ∈ given, a.2.WellFormed)
    (h : fold target (given.lookup .encoding) (given.lookup .parse)
      (given.lookup .ignoreMissing) = .ok i) : i.WellFormed := by
  obtain ⟨rfl, hencoding, hparse, hignoreMissing⟩ := expressions_of_fold h
  -- an attribute that is written has its expression from those given
  have hlookup : ∀ a e, given.lookup a = some e → e.WellFormed := by
    intro a e he
    obtain ⟨u, v, rfl, -⟩ := List.lookup_eq_some_iff.mp he
    exact hgiven (a, e) (by simp)
  refine ⟨htarget, ?_, by rw [hencoding, hparse, hignoreMissing]; exact h⟩
  intro a ha
  rcases expression_of_written ha with h | h | h
  · exact hlookup _ _ (hencoding ▸ h)
  · exact hlookup _ _ (hparse ▸ h)
  · exact hlookup _ _ (hignoreMissing ▸ h)

/-! ## Pieces of a source -/

/-- A piece as sources have them: its text is not empty and holds no marker, its tokens are genuine
and stand in front of the end. -/
def PieceKind.Genuine : PieceKind → Prop
  | text s => s ≠ "" ∧ Unmarked s.toList
  | interpolation tokens => ∃ ts stop, tokens = ts ++ [Token.endAt stop] ∧ ∀ t ∈ ts, t.Genuine
  | directive _ tokens _ => ∃ ts stop, tokens = ts ++ [Token.endAt stop] ∧ ∀ t ∈ ts, t.Genuine
  | endTag _ => True

theorem genuine_inside {stops : List String} {position stop : Nat} {s : List Char}
    {tokens : List Token} (h : scan stops 0 position s = .ok (tokens, stop)) :
    ∃ ts stop', inside tokens stop = ts ++ [Token.endAt stop'] ∧ ∀ t ∈ ts, t.Genuine :=
  ⟨_, stop, rfl, fun t ht => genuine_of_scan h t (List.dropLast_subset _ ht)⟩

/-- What is cut off a source is genuine. -/
theorem genuine_of_cut {k n : Nat} {c : Char} {cs : List Char} {kind : PieceKind}
    (h : cut k (c :: cs) = .ok (some kind, n)) : kind.Genuine := by
  rcases cut_cases h with ⟨-, hcontent, hn⟩ | ⟨-, hcontent, -⟩ |
    ⟨kind', hcontent, ⟨-, hcut⟩ | ⟨-, hcut⟩ | ⟨-, hcut⟩⟩
  · cases hcontent
    obtain ⟨-, hunmarked, -⟩ := textLength_spec (c :: cs)
    rw [← hn] at hunmarked
    refine ⟨?_, by rwa [String.toList_ofList]⟩
    intro hempty
    have htake : (c :: cs).take n = [] := by
      simpa using congrArg String.toList hempty
    -- a run of text is not empty, since no piece is
    rcases List.take_eq_nil_iff.mp htake with hzero | hnil
    · exact absurd hzero (Nat.ne_of_gt (cut_bounds h).1)
    · cases hnil
  · cases hcontent
  · cases hcontent
    obtain ⟨tokens, stop, t, hscan, -, -, rfl, -⟩ := cutInterpolation_eq_ok hcut
    exact genuine_inside hscan
  · cases hcontent
    obtain ⟨tokens, stop, t, -, hscan, -, -, rfl, -⟩ := cutDirective_eq_ok hcut
    exact genuine_inside hscan
  · cases hcontent
    obtain ⟨rest, -, -, rfl, -⟩ := cutEndTag_eq_ok hcut
    trivial

/-- The pieces of a source are genuine. -/
theorem Sliced.genuine {k : Cursor} {s : List Char} {slices : List Slice} (h : Sliced k s slices) :
    ∀ p ∈ slices.filterMap Slice.piece?, p.kind.Genuine := by
  induction h with
  | nil => simp
  | @cons k source rest content slices hne hcut _ ih =>
    obtain ⟨c, cs, rfl⟩ := List.exists_cons_of_ne_nil hne
    intro p hp
    cases content with
    | none => exact ih p (by simpa [Slice.piece?] using hp)
    | some kind =>
      rw [List.filterMap_cons] at hp
      rcases List.mem_cons.mp hp with rfl | hp
      · exact genuine_of_cut hcut
      · exact ih p hp

/-! ## Blocks of a source -/

/-- The tokens of a piece in front of the end are no end. -/
theorem kind_ne_eof_of_genuine {ts : List Token} (h : ∀ t ∈ ts, t.Genuine) :
    ∀ t ∈ ts, t.kind ≠ .eof :=
  fun t ht => (h t ht).kind_ne_eof

theorem wellFormed_of_derives {ts : List Token} {e : Expr} (h : Derives .disjunction ts e)
    (hts : ∀ t ∈ ts, t.Genuine) : e.WellFormed :=
  (h.wellFormed hts).1

/-- The expressions that attributes are given are well formed. -/
theorem Attributes.wellFormed {given given' : List (IncludeAttribute × Expr)} {ts : List Token}
    (h : Attributes given ts given') (hts : ∀ t ∈ ts, t.Genuine)
    (hgiven : ∀ a ∈ given, a.2.WellFormed) : ∀ a ∈ given', a.2.WellFormed := by
  induction h with
  | done => exact hgiven
  | next _ _ _ _ hvalue _ ih =>
    -- the attribute read here has its value from tokens of the tag, like all others
    apply ih fun t ht => hts t (by simp [ht])
    intro a ha
    rcases List.mem_append.mp ha with ha | ha
    · exact hgiven a ha
    · cases List.mem_singleton.mp ha
      exact wellFormed_of_derives hvalue fun t ht => hts t (by simp [ht])

/-- The element that a genuine piece is by itself is well formed. -/
theorem wellFormed_of_leaf {p : Piece} {e : Element} (hp : p.part = .leaf (.ok e))
    (hgenuine : p.kind.Genuine) : e.WellFormed := by
  rcases leaf_cases hp with ⟨s, hkind, rfl⟩ | ⟨tokens, v, hkind, hv, rfl⟩ |
    ⟨scope, tokens, _, name, v, hkind, hv, rfl⟩ | ⟨tokens, _, i, hkind, hi, rfl⟩
  · rw [hkind] at hgenuine
    exact hgenuine
  · rw [hkind] at hgenuine
    obtain ⟨ts, stop, rfl, hts⟩ := hgenuine
    exact wellFormed_of_derives ((wholeExpression_eq_ok_iff (kind_ne_eof_of_genuine hts)).mp hv) hts
  · rw [hkind] at hgenuine
    obtain ⟨ts, stop, rfl, hts⟩ := hgenuine
    obtain ⟨t, sign, vs, rfl, ht, rfl, -, hder⟩ :=
      (assignment_eq_ok_iff (kind_ne_eof_of_genuine hts)).mp hv
    have hname : t.Genuine := hts t (by simp)
    simp only [Token.Genuine, ht] at hname
    exact ⟨hname, wellFormed_of_derives hder fun u hu => hts u (by simp [hu])⟩
  · rw [hkind] at hgenuine
    obtain ⟨ts, stop, rfl, hts⟩ := hgenuine
    obtain ⟨us, vs, target, given, rfl, hder, hattributes, hfold⟩ :=
      (inclusionOf_eq_ok_iff (kind_ne_eof_of_genuine hts)).mp hi
    exact Inclusion.wellFormed_of_fold
      (wellFormed_of_derives hder fun t ht => hts t (by simp [ht]))
      (hattributes.wellFormed (fun t ht => hts t (by simp [ht])) (by simp)) hfold

/-- The condition of a genuine opening tag is well formed. -/
theorem wellFormed_of_opening {p : Piece} {c : Expr} (hp : p.part = .opening (.ok c))
    (hgenuine : p.kind.Genuine) : c.WellFormed := by
  obtain ⟨tokens, hkind, hc⟩ := opening_cases hp
  rw [hkind] at hgenuine
  obtain ⟨ts, stop, rfl, hts⟩ := hgenuine
  exact wellFormed_of_derives ((wholeExpression_eq_ok_iff (kind_ne_eof_of_genuine hts)).mp hc) hts

/-- The elements of a block of genuine pieces are well formed. -/
theorem Forms.wellFormed {ps : List Piece} {es : List Element} (h : Forms ps es)
    (hps : ∀ p ∈ ps, p.kind.Genuine) : Element.AllWellFormed es := by
  induction h with
  | nil => trivial
  | leaf hp _ ih =>
    exact ⟨wellFormed_of_leaf hp (hps _ (by simp)), ih fun q hq => hps q (by simp [hq])⟩
  | conditional hp _ _ _ ihbody ih =>
    exact ⟨⟨wellFormed_of_opening hp (hps _ (by simp)), ihbody fun q hq => hps q (by simp [hq])⟩,
      ih fun q hq => hps q (by simp [hq])⟩
  | branches hp _ _ _ _ _ ihbody ihotherwise ih =>
    exact ⟨⟨wellFormed_of_opening hp (hps _ (by simp)), ihbody fun q hq => hps q (by simp [hq]),
      ihotherwise fun q hq => hps q (by simp [hq])⟩, ih fun q hq => hps q (by simp [hq])⟩

/-- A source is read exactly when its slices are pieces that form a block. -/
theorem parseTemplate_eq_ok_iff {source name : String} {root : List Element} :
    parseTemplate source name = .ok root ↔
      ∃ slices, Sliced .start source.toList slices ∧
        Forms (slices.filterMap Slice.piece?) root := by
  unfold parseTemplate piecesOf
  constructor
  · intro h
    split at h
    · cases h
    · next ps stop hpieces =>
      obtain ⟨slices, hslices, rfl⟩ := sliced_of_pieces hpieces
      refine ⟨slices, hslices, build_eq_ok_iff.mp ?_⟩
      split at h
      · next hbuild =>
        cases h
        exact hbuild
      · cases h
      · cases h
  · rintro ⟨slices, hslices, hforms⟩
    rw [pieces_of_sliced hslices]
    simp only
    rw [build_eq_ok_iff.mpr hforms]

/-- **What is read from a source is well formed.** -/
theorem wellFormed_of_parseTemplate {source name : String} {root : List Element}
    (h : parseTemplate source name = .ok root) : Element.AllWellFormed root := by
  obtain ⟨slices, hslices, hforms⟩ := parseTemplate_eq_ok_iff.mp h
  exact hforms.wellFormed hslices.genuine

/-! ## Texts that are neighbours -/

/-- The piece is text. -/
def Piece.isText (p : Piece) : Bool :=
  match p.kind with
  | .text _ => true
  | _ => false

/-- No text is followed by another one. -/
def Parted (ps : List Piece) : Prop :=
  ∀ p q, [p, q] <:+: ps → p.isText = true → q.isText = false

theorem Parted.of_infix {ps qs : List Piece} (h : Parted qs) (hps : ps <:+: qs) : Parted ps :=
  fun p q hpq => h p q (hpq.trans hps)

/-- Text is cut off up to the next marker. -/
theorem markerAt_of_cut_text {k n : Nat} {s : List Char} {t : String}
    (h : cut k s = .ok (some (.text t), n)) : markerAt s = none ∧ n = textLength s := by
  rcases cut_cases h with ⟨hmarker, -, hn⟩ | ⟨-, hcontent, -⟩ |
    ⟨kind, hcontent, ⟨-, hcut⟩ | ⟨-, hcut⟩ | ⟨-, hcut⟩⟩
  · exact ⟨hmarker, hn⟩
  · cases hcontent
  -- what begins with a marker is no text
  · cases hcontent
    obtain ⟨tokens, stop, t, -, -, -, hkind, -⟩ := cutInterpolation_eq_ok hcut
    cases hkind
  · cases hcontent
    obtain ⟨tokens, stop, t, -, -, -, -, hkind, -⟩ := cutDirective_eq_ok hcut
    cases hkind
  · cases hcontent
    obtain ⟨rest, -, -, hkind, -⟩ := cutEndTag_eq_ok hcut
    cases hkind

/-- Text that is cut off ends where a run of text may end. -/
theorem atMarker_of_cut_text {k : Nat} {source rest : List Char} {t : String}
    (h : cut k (source ++ rest) = .ok (some (.text t), source.length)) : AtMarker rest := by
  have hspec := (textLength_spec (source ++ rest)).2.2
  rw [← (markerAt_of_cut_text h).2] at hspec
  rwa [List.drop_left] at hspec

theorem eq_text_of_isText {p : Piece} (h : p.isText = true) : ∃ t, p.kind = .text t := by
  obtain ⟨kind, place⟩ := p
  cases kind with
  | text t => exact ⟨t, rfl⟩
  | interpolation => cases h
  | directive => cases h
  | endTag => cases h

/-- In a source without comments no text is followed by another one. -/
theorem Sliced.parted {k : Cursor} {s : List Char} {slices : List Slice} (h : Sliced k s slices)
    (hcomments : ∀ x ∈ slices, x.content ≠ none) : Parted (slices.filterMap Slice.piece?) := by
  induction h with
  | nil =>
    intro p q hpq
    cases List.eq_nil_of_infix_nil hpq
  | @cons k source rest content slices hne hcut hrest ih =>
    cases content with
    | none => exact absurd rfl (hcomments _ List.mem_cons_self)
    | some kind =>
      intro p q hpq hp
      rw [List.filterMap_cons] at hpq
      rcases List.infix_cons_iff.mp hpq with hstart | hinfix
      · obtain ⟨t, ht⟩ := hstart
        obtain ⟨rfl, hq⟩ := List.cons.inj ht
        -- the text ends at a marker, and no text begins there
        obtain ⟨content, rfl⟩ := eq_text_of_isText hp
        have hat := atMarker_of_cut_text hcut
        cases hrest with
        | nil => cases hq
        | @cons _ source' rest' content' slices' hne' hcut' =>
          cases content' with
          | none => exact absurd rfl (hcomments _ (List.mem_cons_of_mem _ List.mem_cons_self))
          | some kind' =>
            obtain ⟨rfl, -⟩ := List.cons.inj hq
            rw [← Bool.not_eq_true]
            intro htext
            obtain ⟨content', rfl⟩ := eq_text_of_isText htext
            rcases hat with hnil | hmarker
            · exact hne' (List.append_eq_nil_iff.mp hnil).1
            · rw [(markerAt_of_cut_text hcut').1] at hmarker
              cases hmarker
      · exact ih (fun x hx => hcomments x (List.mem_cons_of_mem _ hx)) p q hinfix hp

/-- An element by itself is text exactly when its piece is, and has no branches. -/
theorem isText_of_leaf {p : Piece} {e : Element} (hp : p.part = .leaf (.ok e)) :
    e.isText = p.isText ∧ e.Separated := by
  rw [Piece.isText]
  rcases leaf_cases hp with ⟨s, hkind, rfl⟩ | ⟨tokens, v, hkind, -, rfl⟩ |
    ⟨scope, tokens, _, name, v, hkind, -, rfl⟩ | ⟨tokens, _, i, hkind, -, rfl⟩ <;>
  · rw [hkind]
    exact ⟨rfl, trivial⟩

/-- A block begins with text only if its pieces do. -/
theorem Forms.head_isText {ps : List Piece} {es : List Element} (h : Forms ps es) :
    ∀ f ∈ es.head?, f.isText = true → ∃ q ∈ ps.head?, q.isText = true := by
  intro f hf htext
  cases h with
  | nil => cases hf
  | @leaf p _ _ _ hp =>
    cases hf
    exact ⟨p, rfl, (isText_of_leaf hp).1 ▸ htext⟩
  | conditional => cases hf; cases htext
  | branches => cases hf; cases htext

/-- The elements of a block without neighbouring texts are separated. -/
theorem Forms.separated {ps : List Piece} {es : List Element} (h : Forms ps es)
    (hps : Parted ps) : Element.AllSeparated es := by
  induction h with
  | nil => trivial
  | @leaf p e ps es hp hforms ih =>
    have hrest : Parted ps := hps.of_infix (List.suffix_cons p ps).isInfix
    refine ⟨(isText_of_leaf hp).2, ?_, ih hrest⟩
    · intro htext f hf
      rw [← Bool.not_eq_true]
      intro hftext
      -- a text behind this one comes from a piece of text, behind which no other may stand
      obtain ⟨q, hq, hqtext⟩ := hforms.head_isText f hf hftext
      obtain ⟨qs, rfl⟩ : ∃ qs, ps = q :: qs := by
        cases ps with
        | nil => cases hq
        | cons q' qs => cases hq; exact ⟨qs, rfl⟩
      rw [hps p q ⟨[], qs, rfl⟩ ((isText_of_leaf hp).1 ▸ htext)] at hqtext
      cases hqtext
  | @conditional p q c qs ps body es hp _ hq _ ihbody ih =>
    refine ⟨ihbody (hps.of_infix ⟨[p], q :: ps, by simp⟩), nofun, ih (hps.of_infix ?_)⟩
    exact ⟨p :: (qs ++ [q]), [], by simp⟩
  | @branches p d q c qs rs ps body otherwise es hp _ hd _ hq _ ihbody ihotherwise ih =>
    refine ⟨⟨ihbody (hps.of_infix ⟨[p], d :: (rs ++ q :: ps), by simp⟩),
      ihotherwise (hps.of_infix ⟨p :: (qs ++ [d]), q :: ps, by simp⟩)⟩, nofun,
      ih (hps.of_infix ?_)⟩
    exact ⟨p :: (qs ++ d :: (rs ++ [q])), [], by simp⟩

/-- **What is read from a source without comments is separated.** -/
theorem separated_of_parseTemplate {source name : String} {root : List Element}
    (h : parseTemplate source name = .ok root) (hcomments : CommentFree source) :
    Element.AllSeparated root := by
  obtain ⟨slices, hslices, hforms⟩ := parseTemplate_eq_ok_iff.mp h
  exact hforms.separated (hslices.parted (hcomments slices hslices))

end Stencil

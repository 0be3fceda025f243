import Stencil.Proofs.Template.Moving

/-!
# Sources side by side

Two sources with a comment between them are read as the elements of the one and then those of the
other. The slices of the first are cut off as before, since the tokens of what can be read leave no
parenthesis open: its last tag ends at its own mark, whatever follows. The comment ends at the first
mark behind it, which its text does not hold and cannot begin. And the second source is cut from its
beginning on, only further on in the whole.

## Main definitions

* `Token.Bracketing` says that a parenthesis is a token by itself.

## Main results

* `Derives.balanced`: the tokens of an expression leave no parenthesis open.
* `Sliced.append`: the slices of a source that can be read are those of its part in a longer one.
* `cut_comment`: a comment ends at the mark behind its text.
* `parseTemplate_juxtaposed`: sources compose at comments.
-/

namespace Stencil

/-! ## Parentheses in tokens -/

/-- A token that looks like a parenthesis is one. -/
def Token.Bracketing (t : Token) : Prop := t.text = "(" ∨ t.text = ")" → t.kind = .symbol

/-- The tokens of a piece look like parentheses only where they are. -/
theorem bracketing_of_cut {k n : Nat} {s : List Char} {kind : PieceKind}
    (h : cut k s = .ok (some kind, n)) : ∀ t ∈ kind.tokens, t.Bracketing := by
  have hscanned : ∀ {stops position s tokens stop},
      scan stops 0 position s = .ok (tokens, stop) →
        ∀ t ∈ (inside tokens stop).dropLast, t.Bracketing := by
    intro stops position s tokens stop hscan t ht
    rw [dropLast_inside] at ht
    exact (scanned_of_scan hscan).forall_mem (P := Token.Bracketing)
      (fun _ hmunch => kind_of_munch_parenthesis hmunch) t (List.dropLast_subset _ ht)
  rcases cut_cases h with ⟨-, hcontent, -⟩ | ⟨-, hcontent, -⟩ |
    ⟨kind, hcontent, ⟨-, hcut⟩ | ⟨-, hcut⟩ | ⟨-, hcut⟩⟩ <;> cases hcontent
  · exact List.forall_mem_nil _
  · obtain ⟨tokens, stop, t, hscan, -, -, rfl, -⟩ := cutInterpolation_eq_ok hcut
    exact hscanned hscan
  · obtain ⟨tokens, stop, t, -, hscan, -, -, rfl, -⟩ := cutDirective_eq_ok hcut
    exact hscanned hscan
  · obtain ⟨-, -, -, rfl, -⟩ := cutEndTag_eq_ok hcut
    exact List.forall_mem_nil _

theorem depthBehind_append (depth : Nat) (ts us : List Token) :
    depthBehind depth (ts ++ us) = depthBehind (depthBehind depth ts) us :=
  List.foldl_append

theorem depthBehind_cons (depth : Nat) (t : Token) (ts : List Token) :
    depthBehind depth (t :: ts) = depthBehind (depthAfter depth t.text) ts :=
  rfl

/-- A token that is no symbol neither opens nor closes a parenthesis. -/
theorem Token.Bracketing.depthAfter_eq {t : Token} (h : t.Bracketing) (hkind : t.kind ≠ .symbol)
    (depth : Nat) : depthAfter depth t.text = depth := by
  have hopen : t.text ≠ "(" := fun heq => hkind (h (.inl heq))
  have hclose : t.text ≠ ")" := fun heq => hkind (h (.inr heq))
  rw [depthAfter, if_neg hopen, if_neg hclose]

theorem text_of_isSymbol {t : Token} {sign : String} (h : t.isSymbol sign = true) :
    t.text = sign := by
  simp only [Token.isSymbol, Bool.and_eq_true, decide_eq_true_eq] at h
  exact h.2

/-- **The tokens of an expression leave no parenthesis open.** -/
theorem Derives.balanced {k : Level} {ts : List Token} {e : Expr} (h : Derives k ts e)
    (hts : ∀ t ∈ ts, t.Bracketing) (depth : Nat) : depthBehind depth ts = depth := by
  induction h generalizing depth with
  | @operand t e ht =>
    have hkind : t.kind ≠ .symbol := by
      intro hsymbol
      rw [Token.operand?_of_symbol hsymbol] at ht
      cases ht
    exact (List.forall_mem_singleton.mp hts).depthAfter_eq hkind depth
  | @group l r ts e hl _ hr ih =>
    simp only [List.forall_mem_cons, List.forall_mem_append] at hts
    have hopen : depthAfter depth l.text = depth + 1 := by
      rw [text_of_isSymbol hl]
      rfl
    have hclose : depthAfter (depth + 1) r.text = depth := by
      rw [text_of_isSymbol hr]
      rfl
    rw [depthBehind_cons, depthBehind_append, hopen, ih hts.2.1]
    exact hclose
  | not ht _ ih =>
    rw [List.forall_mem_cons] at hts
    have hkind := Token.kind_of_isOperator ht
    rw [depthBehind_cons, hts.1.depthAfter_eq (by simp [hkind]), ih hts.2]
  | binary _ ht _ ihl ihr =>
    simp only [List.forall_mem_cons, List.forall_mem_append] at hts
    obtain ⟨hleft, hop, hright⟩ := hts
    have hkind := Token.kind_of_binaryOp? ht
    rw [depthBehind_append, depthBehind_cons, ihl hleft, hop.depthAfter_eq (by simp [hkind]),
      ihr hright]
  | loosen _ _ ih => exact ih hts depth

/-- A name and an equals sign stand outside parentheses. -/
theorem depthBehind_assigned {name sign : Token} {ts : List Token}
    (hname : name.kind = .identifier) (hsign : sign.isOperator "=" = true)
    (hts : ∀ t ∈ name :: sign :: ts, t.Bracketing) (depth : Nat) :
    depthBehind depth (name :: sign :: ts) = depthBehind depth ts := by
  simp only [List.forall_mem_cons] at hts
  have hkind := Token.kind_of_isOperator hsign
  rw [depthBehind_cons, depthBehind_cons, hts.1.depthAfter_eq (by simp [hname]),
    hts.2.1.depthAfter_eq (by simp [hkind])]

theorem Attributes.balanced {given given' : List (IncludeAttribute × Expr)} {ts : List Token}
    (h : Attributes given ts given') (hts : ∀ t ∈ ts, t.Bracketing) (depth : Nat) :
    depthBehind depth ts = depth := by
  induction h with
  | done => rfl
  | next hkind hsign _ _ hvalue _ ih =>
    rw [depthBehind_assigned hkind hsign hts, depthBehind_append]
    simp only [List.forall_mem_cons, List.forall_mem_append] at hts
    obtain ⟨-, -, hvs, hts⟩ := hts
    rw [hvalue.balanced hvs, ih hts]

/-- A piece that can be read leaves no parenthesis open. -/
theorem Piece.Writes.closed {p : Piece} {item : Item} (h : p.Writes item)
    (hp : ∀ t ∈ p.kind.tokens, t.Bracketing) : p.kind.Closed := by
  unfold PieceKind.Closed
  cases h with
  | text | divider | closing => rfl
  | interpolation hvalue =>
    rw [PieceKind.tokens, List.dropLast_concat] at hp ⊢
    exact hvalue.balanced hp 0
  | assign hname hsign hvalue =>
    rw [PieceKind.tokens, List.dropLast_concat] at hp ⊢
    rw [depthBehind_assigned hname hsign hp]
    simp only [List.forall_mem_cons] at hp
    exact hvalue.balanced hp.2.2 0
  | inclusion htarget hattributes =>
    rw [PieceKind.tokens, List.dropLast_concat] at hp ⊢
    rw [List.forall_mem_append] at hp
    rw [depthBehind_append, htarget.balanced hp.1, hattributes.balanced hp.2]
  | opening hcondition =>
    rw [PieceKind.tokens, List.dropLast_concat] at hp ⊢
    exact hcondition.balanced hp 0

/-! ## Slices side by side -/

theorem AtMarker.append {rest more : List Char} (h : AtMarker rest) (hmore : AtMarker more) :
    AtMarker (rest ++ more) := by
  rcases h with rfl | h
  · exact hmore
  · obtain ⟨m, hm, hstart⟩ := isSome_markerAt.mp h
    exact .inr (isSome_markerAt.mpr ⟨m, hm, hstart.trans (List.prefix_append _ _)⟩)

/-- The slices of a source that can be read are cut off in the same way in front of more, and what
stands there is cut from its beginning on. -/
theorem Sliced.append {k : Cursor} {s t : List Char} {xs ys : List Slice} (h : Sliced k s xs)
    (hxs : ∀ p ∈ xs.filterMap Slice.piece?, ∃ item, p.Writes item) (ht : AtMarker t)
    (h' : Sliced (k.across s) t ys) : Sliced k (s ++ t) (xs ++ ys) := by
  induction h with
  | nil => exact h'
  | @cons k source rest content slices hne hcut hrest ih =>
    rw [Cursor.across_append] at h'
    rw [List.filterMap_cons] at hxs
    have hclosed : ∀ kind, content = some kind → kind.Closed := by
      rintro kind rfl
      obtain ⟨item, hwrites⟩ := hxs ⟨kind, k.place⟩ List.mem_cons_self
      exact hwrites.closed (bracketing_of_cut hcut)
    have hslices : ∀ p ∈ slices.filterMap Slice.piece?, ∃ item, p.Writes item := by
      intro p hp
      apply hxs p
      split
      · exact hp
      · exact List.mem_cons_of_mem _ hp
    have hcut' : cut k.offset (source ++ (rest ++ t)) = .ok (content, source.length) := by
      refine cut_append hne hcut (fun _ => hclosed) ?_
      rintro text rfl
      exact (atMarker_of_cut_text hcut).append ht
    rw [List.append_assoc]
    exact .cons hne hcut' (ih hslices h')

/-! ## Comments -/

/-- A comment ends at the mark behind its text, if the text does not hold it. -/
theorem commentLength_append {body : List Char} (h : ¬"-->".toList <:+: body)
    (rest : List Char) : commentLength (body ++ ("-->".toList ++ rest)) = some (body.length + 3) := by
  induction body with
  | nil => rfl
  | cons c body ih =>
    rw [List.infix_cons_iff, not_or] at h
    rw [List.cons_append, commentLength.eq_3, ih h.2, List.length_cons, Option.map_some]
    -- no mark begins at this character: it would end in the text, or behind its own second dash
    rintro r rfl hr
    rcases body with _ | ⟨d, _ | ⟨e, body⟩⟩
    · cases hr
    · cases hr
    · cases hr
      exact h.1 ⟨body, rfl⟩

/-- **A comment is cut off whatever its text is**, if it does not hold the mark that ends it. -/
theorem cut_comment {body : List Char} (h : ¬"-->".toList <:+: body) (k : Nat)
    (rest : List Char) :
    cut k (("<#--".toList ++ body ++ "-->".toList) ++ rest) =
      .ok (none, ("<#--".toList ++ body ++ "-->".toList).length) := by
  have hlength := commentLength_append h rest
  have hmarker : markerAt ("<#--".toList ++ (body ++ ("-->".toList ++ rest))) = some .comment := rfl
  have hdrop : ("<#--".toList ++ (body ++ ("-->".toList ++ rest))).drop 4 =
      body ++ ("-->".toList ++ rest) := rfl
  rw [List.append_assoc, List.append_assoc, cut, hmarker]
  simp only [hdrop, hlength, List.length_append]
  rfl

/-! ## Sources side by side -/

/-- **Sources compose at comments.** Where two sources are read, so are they with any comment between
them that ends where it should: as the elements of the first, each at its place, and then elements
that agree with those of the second. Neither the text of the comment nor the characters that meet
there matter. -/
theorem parseTemplate_juxtaposed {u v c uName vName : String} {es fs : List Element}
    (hu : parseTemplate u uName = .ok es) (hv : parseTemplate v vName = .ok fs)
    (hc : ¬"-->".toList <:+: c.toList) (name : String) :
    ∃ fs', parseTemplate (u ++ "<#--" ++ c ++ "-->" ++ v) name = .ok (es ++ fs') ∧
      Element.agreesAll fs' fs = true := by
  obtain ⟨xs, hxs, hes⟩ := parseTemplate_eq_ok_iff.mp hu
  obtain ⟨ys, hys, hfs⟩ := parseTemplate_eq_ok_iff.mp hv
  have hwrites : ∀ p ∈ xs.filterMap Slice.piece?, ∃ item, p.Writes item :=
    ((List.forall₂_and_left _ _).mp
      ((hes.writes hxs.genuine).imp fun p item hitem => ⟨⟨item, hitem⟩, hitem⟩)).1
  -- the comment stands behind the first source, and the second one behind the comment
  let comment := "<#--".toList ++ c.toList ++ "-->".toList
  let k := Cursor.start.across u.toList
  have hoffset : (k.across comment).offset = (k.across comment).offset + Cursor.start.offset :=
    (Nat.add_zero _).symm
  obtain ⟨zs, hzs, hpieces⟩ := hys.moved hoffset
  obtain ⟨fs', hfs', hagree⟩ := hfs.moved hys.genuine hpieces
  have hcomment : Sliced k (comment ++ v.toList) (⟨comment, k, none⟩ :: zs) :=
    .cons (List.cons_ne_nil _ _) (cut_comment hc _ _) hzs
  have hsliced := hxs.append hwrites (.inr rfl) hcomment
  have hsource : (u ++ "<#--" ++ c ++ "-->" ++ v).toList = u.toList ++ (comment ++ v.toList) := by
    simp only [comment, String.toList_append, List.append_assoc]
  refine ⟨fs', parseTemplate_eq_ok_iff.mpr ⟨_, hsource ▸ hsliced, ?_⟩,
    (Element.agreesAll_iff _ _).mpr hagree⟩
  rw [List.filterMap_append, List.filterMap_cons]
  exact hes.append hfs'

/-- A source that ends in an angle bracket and one that begins like the rest of a tag, around a
comment that holds an unclosed interpolation and dashes at its end. -/
theorem parseTemplate_juxtaposed_tag :
    ∃ es fs fs', parseTemplate "$\x7bx\x7d<" "main" = .ok es ∧
      parseTemplate "#a" "main" = .ok fs ∧ ¬"-->".toList <:+: "$\x7b--".toList ∧
      parseTemplate ("$\x7bx\x7d<" ++ "<#--" ++ "$\x7b--" ++ "-->" ++ "#a") "main" =
        .ok (es ++ fs') ∧ Element.agreesAll fs' fs = true := by
  have hname : IsName "x".toList := by decide
  have htexts : ("<" ≠ "" ∧ Unmarked "<".toList) ∧ "#a" ≠ "" ∧ Unmarked "#a".toList := by decide
  have hc : ¬"-->".toList <:+: "$\x7b--".toList := by decide
  have hfirst : Element.AllWellFormed [.interpolation .unknown (.var "x"), .text .unknown "<"] :=
    ⟨hname, htexts.1, trivial⟩
  have hsecond : Element.AllWellFormed [.text .unknown "#a"] := ⟨htexts.2, trivial⟩
  obtain ⟨es, hes, -⟩ :=
    parseTemplate_canonicalAll hfirst ⟨trivial, nofun, trivial, nofun, trivial⟩ "main"
  obtain ⟨fs, hfs, -⟩ := parseTemplate_canonicalAll hsecond ⟨trivial, nofun, trivial⟩ "main"
  obtain ⟨fs', hparse, hagrees⟩ := parseTemplate_juxtaposed hes hfs hc "main"
  exact ⟨es, fs, fs', hes, hfs, hc, hparse, hagrees⟩

end Stencil

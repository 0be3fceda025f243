import Mathlib.Data.List.Basic
import Stencil.Proofs.Expr.Locality
import Stencil.Proofs.Template.Printing
import Stencil.Proofs.Text.Location

/-!
# Sources are partitioned

The slices of a source lie side by side from its beginning to its end. Each of them is a dropped
comment or the source of one piece, whatever stands around it: cut out of the source and read at the
place where it began, it gives that piece and no other. For this the end of a slice must be found
without a look at what follows. A comment and an end tag end at their own marks, an interpolation
and a directive tag end where the scan of their inside does, and a run of text ends where a marker
or nothing at all follows.

## Main definitions

* `Divided text p slices` says that slices lie side by side from the offset `p` to the end.
* `Slice.Marked` says how slices begin.

## Main results

* `cut_append`: what is cut off does not depend on what stands behind it.
* `pieces_partition`: the slices of a source partition it.
-/

namespace Stencil

/-! ## Markers -/

/-- The characters of a marker. -/
def Marker.opening : Marker → List Char
  | interpolation => ['$', '\x7b']
  | comment => ['<', '#', '-', '-']
  | tag => ['<', '#']
  | endTag => ['<', '/', '#']

theorem prefix_of_markerAt {s : List Char} {m : Marker} (h : markerAt s = some m) :
    m.opening <+: s := by
  unfold markerAt at h
  split at h <;> cases h
  · exact ⟨_, rfl⟩
  · exact ⟨_, rfl⟩
  · exact ⟨_, rfl⟩
  · exact ⟨_, rfl⟩

/-- A text that begins with a marker, in front of more, if it is as long as the marker. -/
theorem exists_of_opening {source rest : List Char} {m : Marker}
    (h : markerAt (source ++ rest) = some m) (hlength : m.opening.length ≤ source.length) :
    ∃ inner, source = m.opening ++ inner := by
  obtain ⟨inner, hinner⟩ := List.prefix_of_prefix_length_le (prefix_of_markerAt h)
    (List.prefix_append source rest) hlength
  exact ⟨inner, hinner.symm⟩

/-! ## What is cut off, in front of other text -/

/-- A comment ends at its own mark. -/
theorem commentLength_take {s : List Char} {n : Nat} (h : commentLength s = some n)
    (more : List Char) : commentLength (s.take n ++ more) = some n := by
  fun_induction commentLength s generalizing n with
  | case1 => cases h
  | case2 rest =>
    cases h
    rfl
  | case3 c rest hmark ih =>
    obtain ⟨m, hm, rfl⟩ := Option.map_eq_some_iff.mp h
    rw [List.take_succ_cons, List.cons_append, commentLength.eq_3, ih hm, Option.map_some]
    -- the two characters that a mark would need behind this one are part of the comment
    obtain ⟨hlong, hle⟩ := commentLength_bounds hm
    obtain ⟨i, rfl⟩ := Nat.exists_eq_add_of_le' hlong
    rintro r rfl hr
    match rest with
    | [] => exact absurd hle (by simp)
    | [_] => exact absurd hle (by simp)
    | _ :: _ :: rest =>
      cases hr
      exact hmark rest rfl rfl

/-- A run that ends inside a text ends there whatever follows the text. -/
theorem takeWhile_inside {p : Char → Bool} {cs rest : List Char}
    (h : ((cs ++ rest).takeWhile p).length < cs.length) (more : List Char) :
    (cs ++ more).takeWhile p = (cs ++ rest).takeWhile p := by
  rw [List.takeWhile_append] at h
  split at h
  · rw [List.length_append] at h
    omega
  · next hends => rw [List.takeWhile_append, List.takeWhile_append, if_neg hends, if_neg hends]

theorem nameLength_inside {inner rest : List Char} (h : nameLength (inner ++ rest) < inner.length)
    (more : List Char) : nameLength (inner ++ more) = nameLength (inner ++ rest) := by
  cases inner with
  | nil => exact absurd h (Nat.not_lt_zero _)
  | cons c cs =>
    rw [List.cons_append, nameLength] at h
    rw [List.cons_append, List.cons_append, nameLength, nameLength]
    split
    · next hc =>
      rw [if_pos hc, List.length_cons] at h
      rw [takeWhile_inside (Nat.lt_of_succ_lt_succ h) more]
    · rfl

/-- A name that ends inside a text is the same name whatever follows the text. -/
theorem name_inside {inner rest : List Char} (h : nameLength (inner ++ rest) < inner.length) :
    ∃ name tail, inner = name ++ tail ∧
      ∀ more, nameLength (name ++ (tail ++ more)) = name.length := by
  refine ⟨_, _, (List.take_append_drop (nameLength (inner ++ rest)) inner).symm, fun more => ?_⟩
  rw [← List.append_assoc, List.take_append_drop, nameLength_inside h,
    List.length_take_of_le (Nat.le_of_lt h)]

/-- The tokens of a piece in front of the one that marks their end. -/
def PieceKind.tokens : PieceKind → List Token
  | interpolation tokens => tokens.dropLast
  | directive _ tokens _ => tokens.dropLast
  | _ => []

/-- No parenthesis is open behind the tokens of a piece. -/
def PieceKind.Closed (kind : PieceKind) : Prop := depthBehind 0 kind.tokens = 0

theorem dropLast_inside (tokens : List Token) (stop : Nat) :
    (inside tokens stop).dropLast = tokens.dropLast :=
  List.dropLast_concat

/-- A scan whose last token is a stop token ends there, if no parenthesis is open in front of it. -/
theorem stopsBehind_of_getLast? {stops : List String} {tokens : List Token} {t : Token}
    (hlast : tokens.getLast? = some t) (hclosed : depthBehind 0 tokens.dropLast = 0)
    (ht : stopsAt stops 0 t.text = true) : StopsBehind stops 0 tokens :=
  ⟨tokens.dropLast, t, (List.dropLast_append_getLast? t hlast).symm, by rwa [hclosed]⟩

section

variable {k : Nat} {inner rest : List Char} {kind : PieceKind}

theorem cutInterpolation_append
    (h : cutInterpolation k (inner ++ rest) = .ok (kind, inner.length + 2))
    (hrest : rest = [] → kind.Closed) (more : List Char) :
    cutInterpolation k (inner ++ more) = .ok (kind, inner.length + 2) := by
  obtain ⟨tokens, stop, t, hscan, hlast, ht, rfl, hlength⟩ := cutInterpolation_eq_ok h
  obtain rfl : stop = k + 2 + inner.length := by omega
  have hend : rest = [] → StopsBehind ["\x7d"] 0 tokens := by
    intro hnil
    have hclosed := hrest hnil
    rw [PieceKind.Closed, PieceKind.tokens, dropLast_inside] at hclosed
    exact stopsBehind_of_getLast? hlast hclosed (by rw [ht]; rfl)
  have hsame := scan_append terminators_brace hscan hend more
  rw [← h, cutInterpolation, cutInterpolation, scanInside, scanInside, hscan, hsame]

theorem cutDirective_append
    (h : cutDirective k (inner ++ rest) = .ok (kind, inner.length + 2))
    (hrest : rest = [] → kind.Closed) (more : List Char) :
    cutDirective k (inner ++ more) = .ok (kind, inner.length + 2) := by
  obtain ⟨tokens, stop, t, -, hscan, hlast, ht, hkind, hlength⟩ := cutDirective_eq_ok h
  have htokens : tokens ≠ [] := by
    rintro rfl
    cases hlast
  have hend : rest = [] → StopsBehind [">", "/>"] 0 tokens := by
    intro hnil
    have hclosed := hrest hnil
    rw [hkind, PieceKind.Closed, PieceKind.tokens, dropLast_inside] at hclosed
    exact stopsBehind_of_getLast? hlast hclosed
      ((scanned_of_scan hscan).stopsAt_tagEnd t (List.mem_of_getLast? hlast) ht)
  -- the first token of the tag stands between its name and its end
  obtain ⟨-, -, -, -, hinside⟩ := (scanned_of_scan hscan).head htokens
  obtain ⟨name, tail, rfl, hname⟩ := name_inside (by omega : nameLength (inner ++ rest) < _)
  rw [List.append_assoc] at h hscan ⊢
  rw [hname, List.drop_left] at hscan
  obtain rfl : stop = k + 2 + name.length + tail.length := by
    rw [List.length_append] at hlength
    omega
  have hscan' := scan_append terminators_tagEnd hscan hend more
  rw [← h]
  unfold cutDirective
  simp only [hname, List.take_left, List.drop_left, scanInside, hscan, hscan']

theorem cutEndTag_append (h : cutEndTag (inner ++ rest) = .ok (kind, inner.length + 3))
    (more : List Char) : cutEndTag (inner ++ more) = .ok (kind, inner.length + 3) := by
  obtain ⟨after, -, hsplit, -, hlength⟩ := cutEndTag_eq_ok h
  obtain ⟨name, tail, rfl, hname⟩ := name_inside (by omega : nameLength (inner ++ rest) < _)
  rw [List.append_assoc] at h hsplit hlength ⊢
  rw [hname, List.drop_left] at hsplit hlength
  have hblanks := mem_takeWhile isBlank (tail ++ rest)
  generalize (tail ++ rest).takeWhile isBlank = blanks at hsplit hlength hblanks
  -- behind the name stand blanks and the mark that ends the tag
  obtain ⟨rfl, -⟩ : tail = blanks ++ ['>'] ∧ rest = after := by
    rw [List.append_cons] at hsplit
    refine List.append_inj hsplit ?_
    rw [List.length_append] at hlength ⊢
    rw [List.length_singleton]
    omega
  have hmark : ∀ text : List Char, ∀ c ∈ ('>' :: text).head?, isBlank c = false := by
    intro text c hc
    cases hc
    decide
  rw [← h]
  simp only [← List.append_cons] at hname ⊢
  unfold cutEndTag
  simp only [hname, List.take_left, List.drop_left, takeWhile_run hblanks (hmark _),
    dropWhile_run hblanks (hmark _)]

theorem markerAt_of_nameLength {s : List Char} (h : nameLength s ≠ 0) :
    markerAt ('<' :: '#' :: s) = some .tag := by
  cases s with
  | nil => exact absurd rfl h
  | cons c cs =>
    rw [nameLength] at h
    split at h
    · next hc => exact markerAt_tag hc cs
    · exact absurd rfl h

/-- **What is cut off the front of a text is the same in front of any other text**, where a run of
text may end if it is one. What the whole text is must not end inside parentheses. -/
theorem cut_append {source : List Char} {content : Option PieceKind} (hne : source ≠ [])
    (h : cut k (source ++ rest) = .ok (content, source.length))
    (hrest : rest = [] → ∀ kind, content = some kind → kind.Closed)
    {more : List Char} (hmore : ∀ t, content = some (.text t) → AtMarker more) :
    cut k (source ++ more) = .ok (content, source.length) := by
  rcases cut_cases h with ⟨-, rfl, hlength⟩ | ⟨hm, rfl, m, hcomment, hlength⟩ |
    ⟨kind, rfl, ⟨hm, hcut⟩ | ⟨hm, hcut⟩ | ⟨hm, hcut⟩⟩
  · have hunmarked := (textLength_spec (source ++ rest)).2.1
    rw [← hlength, List.take_left] at hunmarked
    rw [List.take_left] at hmore ⊢
    exact cut_text hne hunmarked (hmore _ rfl)
  · obtain ⟨inner, rfl⟩ : ∃ inner, source = '<' :: '#' :: '-' :: '-' :: inner :=
      exists_of_opening hm (by change 4 ≤ _; omega)
    obtain rfl : m = inner.length := by
      simp only [List.length_cons] at hlength
      omega
    have hcomment' : commentLength (inner ++ rest) = some inner.length := hcomment
    have hsame := commentLength_take hcomment' more
    rw [List.take_left] at hsame
    have hmarker : markerAt ('<' :: '#' :: '-' :: '-' :: inner ++ more) = some .comment := rfl
    rw [cut, hmarker]
    simp only [List.cons_append, List.drop_succ_cons, List.drop_zero, hsame, hlength]
  · obtain ⟨tokens, stop, -, hscan, -, -, -, hlength⟩ := cutInterpolation_eq_ok hcut
    have hbounds := (scanned_of_scan hscan).bounds.1
    obtain ⟨inner, rfl⟩ : ∃ inner, source = '$' :: '\x7b' :: inner :=
      exists_of_opening hm (by change 2 ≤ _; omega)
    have hcut' : cutInterpolation k (inner ++ rest) = .ok (kind, inner.length + 2) := hcut
    have hclosed : rest = [] → kind.Closed := fun hnil => hrest hnil kind rfl
    exact bind_eq_ok.mpr ⟨_, cutInterpolation_append hcut' hclosed more, rfl⟩
  · obtain ⟨tokens, stop, -, -, hscan, -, -, -, hlength⟩ := cutDirective_eq_ok hcut
    have hbounds := (scanned_of_scan hscan).bounds.1
    obtain ⟨inner, rfl⟩ : ∃ inner, source = '<' :: '#' :: inner :=
      exists_of_opening hm (by change 2 ≤ _; omega)
    have hcut' : cutDirective k (inner ++ rest) = .ok (kind, inner.length + 2) := hcut
    have hclosed : rest = [] → kind.Closed := fun hnil => hrest hnil kind rfl
    have hsame := cutDirective_append hcut' hclosed more
    -- the name that stands there tells the tag from a comment
    obtain ⟨-, -, -, hname, -⟩ := cutDirective_eq_ok hsame
    have hmarker := markerAt_of_nameLength hname
    rw [List.cons_append, List.cons_append, cut, hmarker]
    exact bind_eq_ok.mpr ⟨_, hsame, rfl⟩
  · obtain ⟨-, -, -, -, hlength⟩ := cutEndTag_eq_ok hcut
    obtain ⟨inner, rfl⟩ : ∃ inner, source = '<' :: '/' :: '#' :: inner :=
      exists_of_opening hm (by change 3 ≤ _; omega)
    have hcut' : cutEndTag (inner ++ rest) = .ok (kind, inner.length + 3) := hcut
    exact bind_eq_ok.mpr ⟨_, cutEndTag_append hcut' more, rfl⟩

/-- What is cut off is cut off in the same way if it stands alone. -/
theorem cut_alone {source : List Char} {content : Option PieceKind} (hne : source ≠ [])
    (h : cut k (source ++ rest) = .ok (content, source.length)) :
    cut k source = .ok (content, source.length) := by
  by_cases hrest : rest = []
  · rwa [hrest, List.append_nil] at h
  · have halone := cut_append hne h (absurd · hrest) fun _ _ => .inl rfl
    rwa [List.append_nil] at halone

end

/-! ## Slices side by side -/

/-- Slices lie side by side from an offset to the end of a text: each one is what stands between
its offset and that of the next one. -/
inductive Divided (text : List Char) : Nat → List Slice → Prop
  | done : Divided text text.length []
  | slice {x : Slice} {next : Nat} {xs : List Slice} (hlt : x.start.offset < next)
      (hnext : next ≤ text.length) (hsource : x.source = (text.take next).drop x.start.offset)
      (hrest : Divided text next xs) : Divided text x.start.offset (x :: xs)

/-- A slice begins with the marker of what it is. Text is the slice itself, is not empty and holds
no mark. -/
def Slice.Marked (x : Slice) : Prop :=
  match x.content with
  | none => Marker.comment.opening <+: x.source
  | some (.text s) => s.toList = x.source ∧ x.source ≠ [] ∧ Unmarked x.source
  | some (.interpolation _) => Marker.interpolation.opening <+: x.source
  | some (.directive _ _ _) => Marker.tag.opening <+: x.source
  | some (.endTag _) => Marker.endTag.opening <+: x.source

/-- A slice that is cut off by itself begins with its marker. -/
theorem marked_of_cut {x : Slice} (hne : x.source ≠ [])
    (h : cut x.start.offset x.source = .ok (x.content, x.source.length)) : x.Marked := by
  unfold Slice.Marked
  rcases cut_cases h with ⟨-, hcontent, hlength⟩ | ⟨hm, hcontent, -⟩ |
    ⟨kind, hcontent, ⟨hm, hcut⟩ | ⟨hm, hcut⟩ | ⟨hm, hcut⟩⟩
  · have hunmarked := (textLength_spec x.source).2.1
    rw [← hlength, List.take_length] at hunmarked
    rw [hcontent, List.take_length]
    exact ⟨String.toList_ofList, hne, hunmarked⟩
  · rw [hcontent]
    exact prefix_of_markerAt hm
  · obtain ⟨tokens, stop, -, -, -, -, rfl, -⟩ := cutInterpolation_eq_ok hcut
    rw [hcontent]
    exact prefix_of_markerAt hm
  · obtain ⟨tokens, stop, t, -, -, -, -, rfl, -⟩ := cutDirective_eq_ok hcut
    rw [hcontent]
    exact prefix_of_markerAt hm
  · obtain ⟨-, -, -, rfl, -⟩ := cutEndTag_eq_ok hcut
    rw [hcontent]
    exact prefix_of_markerAt hm

namespace Sliced

variable {k : Cursor} {s : List Char} {slices : List Slice}

/-- The slices of what stands behind some characters lie side by side. -/
theorem divided (h : Sliced k s slices) {front : List Char} (hk : k.offset = front.length) :
    Divided (front ++ s) k.offset slices := by
  induction h generalizing front with
  | nil =>
    rw [List.append_nil, hk]
    exact .done
  | @cons k source rest content slices hne hcut hrest ih =>
    have hnext : (k.across source).offset = (front ++ source).length := by
      rw [Cursor.across_offset, hk, List.length_append]
    have hpos := List.length_pos_iff.mpr hne
    have hdivided := ih hnext
    rw [List.append_assoc] at hdivided
    refine @Divided.slice _ ⟨source, k, content⟩ _ _ ?_ ?_ ?_ hdivided
    · rw [Cursor.across_offset]
      exact Nat.lt_add_of_pos_right hpos
    · rw [hnext, ← List.append_assoc]
      exact (List.prefix_append _ _).length_le
    · rw [hnext, ← List.append_assoc, List.take_left, hk, List.drop_left]

/-- The slices of what stands behind some characters know their locations. -/
theorem located (h : Sliced k s slices) {front : List Char} (hk : k = Cursor.start.across front) :
    ∀ x ∈ slices, x.start.place = location (front ++ s) x.start.offset := by
  induction h generalizing front with
  | nil => exact List.forall_mem_nil _
  | @cons k source rest content slices hne hcut hrest ih =>
    rw [List.forall_mem_cons]
    constructor
    · have hoffset : k.offset = front.length := by
        rw [hk, Cursor.across_offset]
        exact Nat.zero_add _
      rw [location, hoffset, List.take_left, hk, Cursor.place_start_across]
    · rw [← List.append_assoc]
      exact ih (by rw [hk, Cursor.across_append])

/-- Each slice is not empty and is cut off as a whole if it stands alone. -/
theorem alone (h : Sliced k s slices) : ∀ x ∈ slices,
    x.source ≠ [] ∧ cut x.start.offset x.source = .ok (x.content, x.source.length) := by
  induction h with
  | nil => exact List.forall_mem_nil _
  | cons hne hcut _ ih => exact List.forall_mem_cons.mpr ⟨⟨hne, cut_alone hne hcut⟩, ih⟩

end Sliced

/-- A slice that is cut off as a whole is the source of its piece, and of no other. -/
theorem pieces_slice {x : Slice} (hne : x.source ≠ [])
    (h : cut x.start.offset x.source = .ok (x.content, x.source.length)) :
    pieces x.start x.source = .ok (x.piece?.toList, x.start.across x.source) := by
  have hsliced : Sliced x.start (x.source ++ []) [x] :=
    .cons hne (by rwa [List.append_nil]) (.nil _)
  have hpieces := pieces_of_sliced hsliced
  rw [List.append_nil] at hpieces
  rw [hpieces, List.filterMap_cons]
  cases x.piece? <;> rfl

/-! ## The partition -/

/-- **A source is partitioned into its slices.** Whenever a source is cut into pieces, slices lie
side by side from its beginning to its end, and the pieces are what they are the sources of, in
order. Each slice begins with its marker or is a text without marks, and begins at the location of
its offset; read alone it is cut off as a whole, and gives its piece or, if it is a comment,
nothing. The cursor behind the last slice is at the end of the source. Locations grow with the
offset, so that no two of them are one. -/
theorem pieces_partition (text : List Char) :
    (∀ ps stop, pieces .start text = .ok (ps, stop) →
      ∃ slices, Divided text 0 slices ∧ slices.filterMap Slice.piece? = ps ∧
        (∀ x ∈ slices, x.Marked ∧ x.start.place = location text x.start.offset ∧
          cut x.start.offset x.source = .ok (x.content, x.source.length) ∧
          pieces x.start x.source = .ok (x.piece?.toList, x.start.across x.source)) ∧
        stop.offset = text.length ∧ stop.place = location text text.length) ∧
      (∀ p q, p < q → q ≤ text.length → (location text p).Precedes (location text q)) ∧
      ∀ p q, p ≤ text.length → q ≤ text.length → location text p = location text q → p = q := by
  refine ⟨fun ps stop h => ?_, fun _ _ => location_precedes, fun _ _ => location_injective⟩
  obtain ⟨rfl, slices, hsliced, rfl⟩ := pieces_eq_ok_iff.mp h
  have hdivided : Divided ([] ++ text) 0 slices := hsliced.divided rfl
  have hlocated := @Sliced.located _ _ _ hsliced [] rfl
  refine ⟨slices, hdivided, rfl, fun x hx => ?_, ?_, ?_⟩
  · obtain ⟨hne, hcut⟩ := hsliced.alone x hx
    exact ⟨marked_of_cut hne hcut, hlocated x hx, hcut, pieces_slice hne hcut⟩
  · rw [Cursor.across_offset]
    exact Nat.zero_add _
  · rw [Cursor.place_start_across, location, List.take_length]

/-- A text with a line feed, a comment, an interpolation of a literal brace, and an end tag. -/
def linedSource : List Char := "a\n<#-- b -->$\x7b'\x7d'\x7d</#if>".toList

/-- The pieces of `linedSource`: all but the text begin on its second line. -/
def linedPieces (stop : Nat) : List Piece :=
  [⟨.text "a\n", ⟨1, 1⟩⟩,
    ⟨.interpolation [⟨.string, "'\x7d'", 14⟩, Token.endAt stop], ⟨2, 11⟩⟩,
    ⟨.endTag "if", ⟨2, 17⟩⟩]

theorem linedSource_partition :
    ∃ stop slices, pieces .start linedSource = .ok (linedPieces stop, ⟨24, ⟨2, 23⟩⟩) ∧
      Divided linedSource 0 slices ∧ slices.filterMap Slice.piece? = linedPieces stop ∧
      ∀ x ∈ slices, x.Marked ∧ x.start.place = location linedSource x.start.offset := by
  have htext : ∀ k rest, AtMarker rest →
      cut k ("a\n".toList ++ rest) = .ok (some (.text "a\n"), "a\n".toList.length) :=
    fun k rest hrest => cut_text (List.cons_ne_nil _ _) (by decide) hrest
  have hcomment : ∀ k rest,
      cut k ("<#-- b -->".toList ++ rest) = .ok (none, "<#-- b -->".toList.length) :=
    fun k rest => rfl
  have hliteral : Lexes .string ['\'', '\x7d', '\''] ('\x7d' :: "</#if>".toList) :=
    ⟨'\'', ['\x7d', '\''], rfl, rfl⟩
  obtain ⟨stop, hinterpolation⟩ :=
    cut_interpolation (Scans.inner terminators_brace hliteral (Inner.head (by decide) _))
  have hendTag : ∀ k, cut k ("</#if>".toList ++ []) =
      .ok (some (.endTag "if"), "</#if>".toList.length) := fun k => rfl
  have hsliced : Sliced .start linedSource _ :=
    .cons (by decide) (htext _ _ (.inr rfl)) (.cons (by decide) (hcomment _ _)
      (.cons (List.cons_ne_nil _ _) hinterpolation (.cons (by decide) (hendTag _) (.nil _))))
  have hpieces := pieces_of_sliced hsliced
  obtain ⟨slices, hdivided, hkept, hslices, -⟩ := (pieces_partition linedSource).1 _ _ hpieces
  exact ⟨stop, slices, hpieces, hdivided, hkept, fun x hx =>
    ⟨(hslices x hx).1, (hslices x hx).2.1⟩⟩

end Stencil

import Stencil.Proofs.Expr.Lexing
import Stencil.Proofs.Outcome
import Stencil.Template.Parser

/-!
# Slices of template sources

Cutting a source gives slices that follow each other without gaps: each one is the source of a
piece, or a comment. A run of text ends where a marker begins, and no marker begins inside it.

## Main definitions

* `Unmarked` texts hold no marker, `AtMarker` is where a run of text may end.
* `Slice` is a part of a source with what it is, `Sliced` says that a source is cut into slices.
* `CommentFree` sources have no comment among their slices.

## Main results

* `textLength_append`: a run of text is measured up to the marker behind it.
* `pieces_eq_ok_iff`: the pieces of a source are those of its slices.
-/

namespace Stencil

/-! ## Markers -/

/-- How markers begin. -/
def marks : List (List Char) := [['$', '\x7b'], ['<', '#'], ['<', '/', '#']]

/-- A marker stands at the front of a text exactly when one of the marks does. -/
theorem isSome_markerAt {s : List Char} : (markerAt s).isSome ↔ ∃ m ∈ marks, m <+: s := by
  constructor
  · intro h
    unfold markerAt at h
    split at h
    · next t => exact ⟨['$', '\x7b'], by decide, t, rfl⟩
    -- a comment begins like a tag, so one mark covers both
    · next t => exact ⟨['<', '#'], by decide, '-' :: '-' :: t, rfl⟩
    · next t _ => exact ⟨['<', '#'], by decide, t, rfl⟩
    · next t => exact ⟨['<', '/', '#'], by decide, t, rfl⟩
    · cases h
  · rintro ⟨m, hm, t, rfl⟩
    simp only [marks, List.mem_cons, List.not_mem_nil, or_false] at hm
    rcases hm with rfl | rfl | rfl
    · rfl
    · rw [markerAt.eq_def]
      split
      · rfl
      · rfl
      · rfl
      · rfl
      · next h _ => exact absurd rfl (h t)
    · rfl

theorem markerAt_eq_none {s : List Char} : markerAt s = none ↔ ∀ m ∈ marks, ¬m <+: s := by
  rw [← Option.not_isSome_iff_eq_none, isSome_markerAt]
  simp

/-- No mark occurs in the text. -/
def Unmarked (s : List Char) : Prop := ∀ m ∈ marks, ¬m <:+: s

instance (s : List Char) : Decidable (Unmarked s) :=
  inferInstanceAs (Decidable (∀ m ∈ marks, ¬m <:+: s))

/-- The text ends here, or something other than text begins. -/
def AtMarker (rest : List Char) : Prop := rest = [] ∨ (markerAt rest).isSome

theorem unmarked_nil : Unmarked [] := by decide

/-- A text is unmarked when no marker begins at any of its characters. -/
theorem unmarked_cons {c : Char} {s : List Char} :
    Unmarked (c :: s) ↔ markerAt (c :: s) = none ∧ Unmarked s := by
  simp only [Unmarked, List.infix_cons_iff, not_or, markerAt_eq_none]
  exact ⟨fun h => ⟨fun m hm => (h m hm).1, fun m hm => (h m hm).2⟩,
    fun h m hm => ⟨h.1 m hm, h.2 m hm⟩⟩

/-- A part of an unmarked text is unmarked. -/
theorem Unmarked.of_infix {s t : List Char} (h : Unmarked t) (hst : s <:+: t) : Unmarked s :=
  fun m hm hms => h m hm (hms.trans hst)

/-- A marker begins with a dollar sign or an opening angle bracket. -/
theorem AtMarker.head {rest : List Char} (h : AtMarker rest) :
    ∀ c ∈ rest.head?, c = '$' ∨ c = '<' := by
  intro c hc
  rcases h with rfl | h
  · cases hc
  · obtain ⟨m, hm, t, rfl⟩ := isSome_markerAt.mp h
    simp only [marks, List.mem_cons, List.not_mem_nil, or_false] at hm
    rcases hm with rfl | rfl | rfl <;> cases hc <;> simp

/-- No marker begins in an unmarked text and ends behind it, where another marker begins. -/
theorem markerAt_append {c : Char} {s rest : List Char} (h : markerAt (c :: s) = none)
    (hrest : AtMarker rest) : markerAt (c :: s ++ rest) = none := by
  apply markerAt_eq_none.mpr
  intro m hm hstart
  rcases List.prefix_or_prefix_of_prefix hstart (List.prefix_append (c :: s) rest) with hm' | hm'
  · exact markerAt_eq_none.mp h m hm hm'
  · obtain ⟨t, rfl⟩ := hm'
    cases t with
    | nil => exact markerAt_eq_none.mp h _ hm (by simp)
    | cons d t =>
      obtain ⟨u, hu⟩ := (List.prefix_append_right_inj _).mp hstart
      have hd : d = '$' ∨ d = '<' := hrest.head d (by simp [← hu])
      -- behind its first character no mark has the first character of a mark
      have hmarks : ∀ m ∈ marks, '$' ∉ m.tail ∧ '<' ∉ m.tail := by decide
      obtain ⟨hdollar, hangle⟩ := hmarks _ hm
      rcases hd with rfl | rfl
      · exact hdollar (by simp)
      · exact hangle (by simp)

/-! ## Runs of text -/

/-- A run of text is measured up to the marker behind it. -/
theorem textLength_append {s rest : List Char} (h : Unmarked s) (hrest : AtMarker rest) :
    textLength (s ++ rest) = s.length := by
  -- on the text: in front of its end nothing begins a marker, even together with what follows
  induction s with
  | nil =>
    cases rest with
    | nil => rfl
    | cons c rest =>
      have hmarker : (markerAt (c :: rest)).isSome := by
        rcases hrest with h | h
        · cases h
        · exact h
      rw [List.nil_append, textLength, if_pos hmarker, List.length_nil]
  | cons c s ih =>
    obtain ⟨hfirst, hs⟩ := unmarked_cons.mp h
    have hmarker := markerAt_append hfirst hrest
    rw [List.cons_append] at hmarker ⊢
    rw [textLength, hmarker, Option.isSome_none, if_neg Bool.false_ne_true, ih hs,
      List.length_cons]

/-- What is measured as text is unmarked and ends where a run of text may end. -/
theorem textLength_spec (s : List Char) :
    textLength s ≤ s.length ∧ Unmarked (s.take (textLength s)) ∧
      AtMarker (s.drop (textLength s)) := by
  induction s with
  | nil => exact ⟨Nat.le_refl _, unmarked_nil, Or.inl rfl⟩
  | cons c s ih =>
    obtain ⟨hle, hunmarked, hmarker⟩ := ih
    rw [textLength]
    split
    · next h => exact ⟨Nat.zero_le _, unmarked_nil, Or.inr h⟩
    · next h =>
      rw [Option.not_isSome_iff_eq_none, markerAt_eq_none] at h
      refine ⟨Nat.succ_le_succ hle, unmarked_cons.mpr ⟨?_, hunmarked⟩, hmarker⟩
      apply markerAt_eq_none.mpr
      intro m hm hstart
      have hfront : (c :: s).take (textLength s + 1) <+: c :: s := List.take_prefix _ _
      exact h m hm (hstart.trans hfront)

/-! ## How far a piece reaches -/

theorem commentLength_bounds {s : List Char} {n : Nat} (h : commentLength s = some n) :
    3 ≤ n ∧ n ≤ s.length := by
  fun_induction commentLength s generalizing n with
  | case1 => cases h
  | case2 rest =>
    cases h
    simp
  | case3 c rest _ ih =>
    obtain ⟨m, hm, rfl⟩ := Option.map_eq_some_iff.mp h
    -- the end of the comment lies behind a character that does not begin it
    have := ih hm
    rw [List.length_cons]
    omega

theorem nameLength_le (s : List Char) : nameLength s ≤ s.length := by
  cases s with
  | nil => exact Nat.le_refl _
  | cons c s =>
    rw [nameLength]
    split
    · exact Nat.succ_le_succ (length_takeWhile_le _ _)
    · exact Nat.zero_le _

theorem scanInside_eq_ok {stops : List String} {position : Nat} {s : List Char}
    {r : List Token × Nat} :
    scanInside stops position s = .ok r ↔ scan stops 0 position s = .ok r := by
  rw [scanInside]
  cases scan stops 0 position s <;> simp

variable {k n : Nat} {s : List Char}

/-- An interpolation holds the tokens of a scan up to the brace that ends it. -/
theorem cutInterpolation_eq_ok {kind : PieceKind} (h : cutInterpolation k s = .ok (kind, n)) :
    ∃ tokens stop t, scan ["\x7d"] 0 (k + 2) s = .ok (tokens, stop) ∧ tokens.getLast? = some t ∧
      t.text = "\x7d" ∧ kind = .interpolation (inside tokens stop) ∧ n = stop - k := by
  obtain ⟨⟨tokens, stop⟩, hscan, hend⟩ := bind_eq_ok.mp h
  simp only at hend
  split at hend
  · next t hlast =>
    split at hend
    · next ht =>
      cases hend
      exact ⟨tokens, stop, t, scanInside_eq_ok.mp hscan, hlast, ht, rfl, rfl⟩
    · cases hend
  · cases hend

/-- A directive tag holds a name and the tokens of a scan up to the mark that ends it. -/
theorem cutDirective_eq_ok {kind : PieceKind} (h : cutDirective k s = .ok (kind, n)) :
    ∃ tokens stop t, nameLength s ≠ 0 ∧
      scan [">", "/>"] 0 (k + 2 + nameLength s) (s.drop (nameLength s)) = .ok (tokens, stop) ∧
      tokens.getLast? = some t ∧ t.kind = .tagEnd ∧
      kind = .directive (String.ofList (s.take (nameLength s))) (inside tokens stop)
        (t.text = "/>") ∧ n = stop - k := by
  unfold cutDirective at h
  simp only at h
  split at h
  · cases h
  next hname =>
  obtain ⟨⟨tokens, stop⟩, hscan, hend⟩ := bind_eq_ok.mp h
  simp only at hend
  split at hend
  · next t hlast =>
    split at hend
    · next ht =>
      cases hend
      exact ⟨tokens, stop, t, hname, scanInside_eq_ok.mp hscan, hlast, ht, rfl, rfl⟩
    · cases hend
  · cases hend

/-- An end tag holds a name, and blanks in front of the mark that ends it. -/
theorem cutEndTag_eq_ok {kind : PieceKind} (h : cutEndTag s = .ok (kind, n)) :
    ∃ rest, nameLength s ≠ 0 ∧
      s.drop (nameLength s) = (s.drop (nameLength s)).takeWhile isBlank ++ '>' :: rest ∧
      kind = .endTag (String.ofList (s.take (nameLength s))) ∧
      n = 3 + nameLength s + ((s.drop (nameLength s)).takeWhile isBlank).length + 1 := by
  unfold cutEndTag at h
  simp only at h
  split at h
  · cases h
  next hname =>
  split at h
  · next rest hrest =>
    cases h
    exact ⟨rest, hname, by rw [← hrest, List.takeWhile_append_dropWhile], rfl, rfl⟩
  · cases h

/-- What is cut off the front of a text: a run of text, a comment, or the piece that begins with the
marker that stands there. -/
theorem cut_cases {content : Option PieceKind} (h : cut k s = .ok (content, n)) :
    (markerAt s = none ∧ content = some (.text (String.ofList (s.take n))) ∧ n = textLength s) ∨
      (markerAt s = some .comment ∧ content = none ∧
        ∃ m, commentLength (s.drop 4) = some m ∧ n = 4 + m) ∨
      ∃ kind, content = some kind ∧
        ((markerAt s = some .interpolation ∧ cutInterpolation k (s.drop 2) = .ok (kind, n)) ∨
          (markerAt s = some .tag ∧ cutDirective k (s.drop 2) = .ok (kind, n)) ∨
          markerAt s = some .endTag ∧ cutEndTag (s.drop 3) = .ok (kind, n)) := by
  unfold cut at h
  split at h
  · next hm =>
    cases h
    exact Or.inl ⟨hm, rfl, rfl⟩
  · next hm =>
    split at h
    · next m hlength =>
      cases h
      exact Or.inr (Or.inl ⟨hm, rfl, m, hlength, rfl⟩)
    · cases h
  · next hm =>
    obtain ⟨⟨kind, m⟩, hcut, hresult⟩ := bind_eq_ok.mp h
    cases hresult
    exact Or.inr (Or.inr ⟨kind, rfl, Or.inl ⟨hm, hcut⟩⟩)
  · next hm =>
    obtain ⟨⟨kind, m⟩, hcut, hresult⟩ := bind_eq_ok.mp h
    cases hresult
    exact Or.inr (Or.inr ⟨kind, rfl, Or.inr (Or.inl ⟨hm, hcut⟩)⟩)
  · next hm =>
    obtain ⟨⟨kind, m⟩, hcut, hresult⟩ := bind_eq_ok.mp h
    cases hresult
    exact Or.inr (Or.inr ⟨kind, rfl, Or.inr (Or.inr ⟨hm, hcut⟩)⟩)

/-- A marker takes two characters at least. -/
theorem two_le_length_of_markerAt {m : Marker} (h : markerAt s = some m) : 2 ≤ s.length := by
  obtain ⟨u, hu, hus⟩ := isSome_markerAt.mp (Option.isSome_of_mem h)
  have hlength : ∀ u ∈ marks, 2 ≤ u.length := by decide
  exact Nat.le_trans (hlength u hu) hus.length_le

/-- A piece is not empty and lies within the text. -/
theorem cut_bounds {c : Char} {cs : List Char} {content : Option PieceKind}
    (h : cut k (c :: cs) = .ok (content, n)) : 0 < n ∧ n ≤ (c :: cs).length := by
  rcases cut_cases h with ⟨hm, -, rfl⟩ | ⟨hm, -, m, hlength, rfl⟩ |
    ⟨kind, -, ⟨hm, hcut⟩ | ⟨hm, hcut⟩ | ⟨hm, hcut⟩⟩
  · refine ⟨?_, (textLength_spec _).1⟩
    rw [textLength, hm]
    exact Nat.succ_pos _
  · have hbounds := commentLength_bounds hlength
    rw [List.length_drop] at hbounds
    omega
  · -- the scan of the inside ends within the text
    obtain ⟨tokens, stop, t, hscan, -, -, -, hlength⟩ := cutInterpolation_eq_ok hcut
    have hbounds := (scanned_of_scan hscan).bounds
    have hmark := two_le_length_of_markerAt hm
    rw [List.length_drop] at hbounds
    omega
  · obtain ⟨tokens, stop, t, -, hscan, -, -, -, hlength⟩ := cutDirective_eq_ok hcut
    have hbounds := (scanned_of_scan hscan).bounds
    have hname := nameLength_le ((c :: cs).drop 2)
    have hmark := two_le_length_of_markerAt hm
    rw [List.length_drop, List.length_drop] at hbounds
    rw [List.length_drop] at hname
    omega
  · obtain ⟨rest, hname, hrest, -, hlength⟩ := cutEndTag_eq_ok hcut
    have hbounds := congrArg List.length hrest
    have hname := nameLength_le ((c :: cs).drop 3)
    simp only [List.length_drop, List.length_append, List.length_cons] at hbounds hname
    rw [List.length_cons]
    omega

/-! ## Slices -/

/-- A part of a source and what it is; a comment has no content. -/
structure Slice where
  source : List Char
  start : Cursor
  content : Option PieceKind

/-- The piece that a slice is the source of. -/
def Slice.piece? (x : Slice) : Option Piece := x.content.map fun kind => ⟨kind, x.start.place⟩

/-- A source is cut into slices, each of which is cut off the front of what is left. -/
inductive Sliced : Cursor → List Char → List Slice → Prop
  | nil (k : Cursor) : Sliced k [] []
  | cons {k : Cursor} {source rest : List Char} {content : Option PieceKind} {slices : List Slice}
      (hne : source ≠ []) (h : cut k.offset (source ++ rest) = .ok (content, source.length))
      (hrest : Sliced (k.across source) rest slices) :
      Sliced k (source ++ rest) (⟨source, k, content⟩ :: slices)

/-- No slice of the source is a comment. -/
def CommentFree (source : String) : Prop :=
  ∀ slices, Sliced .start source.toList slices → ∀ x ∈ slices, x.content ≠ none

theorem Sliced.eq_nil {k : Cursor} {xs : List Slice} (h : Sliced k [] xs) : xs = [] := by
  generalize hs : ([] : List Char) = s at h
  cases h with
  | nil => rfl
  | cons hne => exact absurd (List.append_eq_nil_iff.mp hs.symm).1 hne

/-- The first slice is what is cut off, and the others are the slices of the rest. -/
theorem Sliced.first {k : Cursor} {s : List Char} {xs : List Slice} (h : Sliced k s xs)
    (hs : s ≠ []) :
    ∃ source rest content slices, s = source ++ rest ∧ xs = ⟨source, k, content⟩ :: slices ∧
      cut k.offset s = .ok (content, source.length) ∧ Sliced (k.across source) rest slices := by
  cases h with
  | nil => exact absurd rfl hs
  | cons _ hcut hrest => exact ⟨_, _, _, _, rfl, rfl, hcut, hrest⟩

/-- A source is cut into slices in one way. -/
theorem Sliced.unique {k : Cursor} {s : List Char} {xs ys : List Slice} (hx : Sliced k s xs)
    (hy : Sliced k s ys) : xs = ys := by
  -- both ways to cut begin with the same slice, since what is cut off is determined
  induction hx generalizing ys with
  | nil => exact hy.eq_nil.symm
  | @cons k source rest content slices hne hcut _ ih =>
    obtain ⟨source', rest', content', slices', hsource, rfl, hcut', hrest'⟩ :=
      hy.first (by simp [hne])
    rw [hcut] at hcut'
    obtain ⟨rfl, hlength⟩ := Prod.mk.inj (Except.ok.inj hcut')
    obtain ⟨rfl, rfl⟩ := List.append_inj hsource hlength
    rw [ih hrest']

/-- Cutting goes on behind what is cut off. -/
theorem pieces_of_cut {k : Cursor} {source rest : List Char} {content : Option PieceKind}
    (hne : source ≠ []) (h : cut k.offset (source ++ rest) = .ok (content, source.length)) :
    pieces k (source ++ rest) = (pieces (k.across source) rest).map fun r =>
      ((content.map fun kind => (⟨kind, k.place⟩ : Piece)).toList ++ r.1, r.2) := by
  obtain ⟨c, cs, rfl⟩ := List.exists_cons_of_ne_nil hne
  have htake : (cs ++ rest).take ((c :: cs).length - 1) = cs := List.take_left' rfl
  have hdrop : (cs ++ rest).drop ((c :: cs).length - 1) = rest := List.drop_left' rfl
  rw [List.cons_append] at h ⊢
  rw [pieces_cons h, htake, hdrop]

/-- The pieces of a source are those of its slices. -/
theorem pieces_of_sliced {k : Cursor} {s : List Char} {slices : List Slice}
    (h : Sliced k s slices) : pieces k s = .ok (slices.filterMap Slice.piece?, k.across s) := by
  induction h with
  | nil => exact pieces_nil _
  | @cons k source rest content slices hne hcut _ ih =>
    rw [pieces_of_cut hne hcut, ih, List.filterMap_cons, Cursor.across_append]
    cases content <;> rfl

/-- A source that can be cut has slices. -/
theorem sliced_of_pieces {k stop : Cursor} {s : List Char} {ps : List Piece}
    (h : pieces k s = .ok (ps, stop)) :
    ∃ slices, Sliced k s slices ∧ slices.filterMap Slice.piece? = ps := by
  -- on the length of the source: each piece takes at least one character of it
  obtain ⟨n, hn⟩ : ∃ n, s.length = n := ⟨_, rfl⟩
  induction n using Nat.strongRecOn generalizing k s ps with
  | ind n ih =>
    cases s with
    | nil =>
      rw [pieces_nil] at h
      cases h
      exact ⟨[], .nil _, rfl⟩
    | cons c cs =>
      cases hcut : cut k.offset (c :: cs) with
      | error e => rw [pieces, hcut] at h; cases h
      | ok r =>
        obtain ⟨content, m⟩ := r
        obtain ⟨hpos, hle⟩ := cut_bounds hcut
        rw [pieces_cons hcut] at h
        cases hrest : pieces (k.across (c :: cs.take (m - 1))) (cs.drop (m - 1)) with
        | error e => rw [hrest] at h; cases h
        | ok r =>
          obtain ⟨ps', stop'⟩ := r
          rw [hrest] at h
          cases h
          have hshorter : (cs.drop (m - 1)).length < n := by
            rw [← hn, List.length_drop, List.length_cons]
            omega
          obtain ⟨slices, hslices, rfl⟩ := ih _ hshorter hrest rfl
          have hsource : c :: cs = (c :: cs.take (m - 1)) ++ cs.drop (m - 1) := by
            rw [List.cons_append, List.take_append_drop]
          have hlength : (c :: cs.take (m - 1)).length = m := by
            rw [List.length_cons] at hle
            rw [List.length_cons, List.length_take]
            omega
          refine ⟨⟨c :: cs.take (m - 1), k, content⟩ :: slices, ?_, ?_⟩
          · rw [hsource] at hcut ⊢
            exact .cons (List.cons_ne_nil _ _) (by rw [hlength]; exact hcut) hslices
          · rw [List.filterMap_cons]
            cases content <;> rfl

/-- **The pieces of a source are those of its slices.** -/
theorem pieces_eq_ok_iff {k stop : Cursor} {s : List Char} {ps : List Piece} :
    pieces k s = .ok (ps, stop) ↔
      stop = k.across s ∧ ∃ slices, Sliced k s slices ∧ slices.filterMap Slice.piece? = ps := by
  constructor
  · intro h
    obtain ⟨slices, hslices, rfl⟩ := sliced_of_pieces h
    have hpieces := pieces_of_sliced hslices
    rw [h] at hpieces
    cases hpieces
    exact ⟨rfl, slices, hslices, rfl⟩
  · rintro ⟨rfl, slices, hslices, rfl⟩
    exact pieces_of_sliced hslices

end Stencil

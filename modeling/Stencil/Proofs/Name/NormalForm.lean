import Stencil.Name

/-!
# Normal forms are normal

The normal form of a name is its own normal form. The path of a normal form is put together from
ordinary segments, which are what dividing it at its slashes gives back; no two slashes of it meet, so
that no scheme can arise in it.

## Main results

* `Name.segments_joinSegments`: dividing takes back joining.
* `Name.normalize_normal`: what `normalize` gives it leaves as it is.
-/

namespace Stencil

namespace Name

/-! ## Segments -/

theorem segments_ne_nil (path : List Char) : segments path ≠ [] := by
  cases path with
  | nil => exact nofun
  | cons c rest =>
    unfold segments
    split
    · exact nofun
    · split <;> exact nofun

/-- A path that is divided at a slash has the segments of both parts. -/
theorem segments_append_slash (path rest : List Char) :
    segments (path ++ '/' :: rest) = segments path ++ segments rest := by
  induction path with
  | nil => simp [segments]
  | cons c path ih =>
    rw [List.cons_append, segments, segments, ih]
    split
    · rfl
    · -- the first segment of the path grows by a character, and it has a first segment
      obtain ⟨s, ss, hpath⟩ := List.exists_cons_of_ne_nil (segments_ne_nil path)
      rw [hpath]
      rfl

theorem segments_of_slash_not_mem {s : List Char} (h : '/' ∉ s) : segments s = [s] := by
  induction s with
  | nil => rfl
  | cons c s ih =>
    obtain ⟨hc, hs⟩ := not_or.mp (mt List.mem_cons.mpr h)
    rw [segments, if_neg (Ne.symm hc), ih hs]

/-- The segments of a path have no slashes, and no characters but those of the path. -/
theorem mem_segments {path s : List Char} (h : s ∈ segments path) :
    '/' ∉ s ∧ ∀ c ∈ s, c ∈ path := by
  induction path generalizing s with
  | nil =>
    cases List.mem_singleton.mp h
    exact ⟨nofun, nofun⟩
  | cons c path ih =>
    obtain ⟨first, others, hpath⟩ := List.exists_cons_of_ne_nil (segments_ne_nil path)
    rw [hpath] at ih
    rw [segments, hpath] at h
    split at h
    · rcases List.mem_cons.mp h with rfl | h
      · exact ⟨nofun, nofun⟩
      · exact ⟨(ih h).1, fun d hd => List.mem_cons_of_mem c ((ih h).2 d hd)⟩
    · next hc =>
      rcases List.mem_cons.mp h with rfl | h
      · obtain ⟨hslash, hmem⟩ := ih List.mem_cons_self
        constructor
        · exact mt List.mem_cons.mp (not_or.mpr ⟨Ne.symm hc, hslash⟩)
        · intro d hd
          rcases List.mem_cons.mp hd with rfl | hd
          · exact List.mem_cons_self
          · exact List.mem_cons_of_mem c (hmem d hd)
      · have hrest := ih (List.mem_cons_of_mem first h)
        exact ⟨hrest.1, fun d hd => List.mem_cons_of_mem c (hrest.2 d hd)⟩

theorem joinSegments_singleton (s : List Char) : joinSegments [s] = s :=
  List.intercalate_singleton

theorem joinSegments_cons_cons (s t : List Char) (ss : List (List Char)) :
    joinSegments (s :: t :: ss) = s ++ '/' :: joinSegments (t :: ss) := by
  rw [joinSegments, List.intercalate_cons_cons, List.append_assoc, List.singleton_append,
    joinSegments]

/-- Dividing takes back joining, where there is something to join. -/
theorem segments_joinSegments {ss : List (List Char)} (hne : ss ≠ [])
    (h : ∀ s ∈ ss, '/' ∉ s) : segments (joinSegments ss) = ss := by
  match ss with
  | [s] =>
    rw [joinSegments_singleton, segments_of_slash_not_mem (h s List.mem_cons_self)]
  | s :: t :: ss =>
    -- the first segment ends at the first slash, which stands behind it
    have ih := segments_joinSegments (List.cons_ne_nil t ss) fun u hu =>
      h u (List.mem_cons_of_mem s hu)
    rw [joinSegments_cons_cons, segments_append_slash,
      segments_of_slash_not_mem (h s List.mem_cons_self), ih]
    rfl

theorem mem_joinSegments {ss : List (List Char)} {c : Char} (h : c ∈ joinSegments ss) :
    c = '/' ∨ ∃ s ∈ ss, c ∈ s := by
  match ss with
  | [] => cases h
  | [s] =>
    rw [joinSegments_singleton] at h
    exact .inr ⟨s, List.mem_cons_self, h⟩
  | s :: t :: ss =>
    rw [joinSegments_cons_cons] at h
    rcases List.mem_append.mp h with h | h
    · exact .inr ⟨s, List.mem_cons_self, h⟩
    rcases List.mem_cons.mp h with h | h
    · exact .inl h
    rcases mem_joinSegments h with h | ⟨u, hu, hc⟩
    · exact .inl h
    · exact .inr ⟨u, List.mem_cons_of_mem s hu, hc⟩

/-! ## Paths -/

/-- A walk along ordinary segments goes down all of them. -/
theorem climb_of_ordinary {segs : List (List Char)} (h : ∀ s ∈ segs, Ordinary s)
    (done : List (List Char)) : climb done segs = some (segs.reverse ++ done) := by
  induction segs generalizing done with
  | nil => rfl
  | cons s segs ih =>
    obtain ⟨hempty, hdot, hdots⟩ := h s List.mem_cons_self
    rw [climb.eq_def]
    dsimp only
    rw [if_neg (not_or.mpr ⟨hempty, hdot⟩), if_neg hdots,
      ih (fun t ht => h t (List.mem_cons_of_mem s ht)), List.reverse_cons, List.append_assoc]
    rfl

/-- A walk ends in segments that it began with or came along. -/
theorem climb_subset {done segs out : List (List Char)} (h : climb done segs = some out) :
    ∀ s ∈ out, s ∈ done ∨ s ∈ segs := by
  induction segs generalizing done with
  | nil =>
    cases h
    exact fun s hs => .inl hs
  | cons t segs ih =>
    intro s hs
    unfold climb at h
    split at h
    · exact (ih h s hs).imp id (List.mem_cons_of_mem t)
    split at h
    · split at h
      · cases h
      · exact (ih h s hs).imp (List.mem_cons_of_mem _) (List.mem_cons_of_mem t)
    · rcases ih h s hs with hdone | hsegs
      · rcases List.mem_cons.mp hdone with rfl | hdone
        · exact .inr List.mem_cons_self
        · exact .inl hdone
      · exact .inr (List.mem_cons_of_mem t hsegs)

/-- A walk along a path ends in ordinary segments, which are segments of the path. -/
theorem ordinary_of_climb {path : List Char} {out : List (List Char)}
    (h : climb [] (segments path) = some out) :
    ∀ s ∈ out.reverse, Ordinary s ∧ s ∈ segments path := by
  intro s hs
  have hout := List.mem_reverse.mp hs
  exact ⟨climb_ordinary (List.forall_mem_nil _) h s hout,
    (climb_subset h s hout).resolve_left List.not_mem_nil⟩

/-- The normal form of a path is empty or has ordinary segments, which are segments of the path. -/
theorem normalizePath?_eq_some {path normal : List Char} (h : normalizePath? path = some normal) :
    ∃ ss : List (List Char), normal = joinSegments ss ∧
      ∀ s ∈ ss, Ordinary s ∧ s ∈ segments path := by
  obtain ⟨out, hclimb, rfl⟩ := Option.map_eq_some_iff.mp h
  exact ⟨out.reverse, rfl, ordinary_of_climb hclimb⟩

/-- The walk along a path of ordinary segments ends at the last of them. -/
theorem climb_segments_joinSegments {ss : List (List Char)} (h : ∀ s ∈ ss, Ordinary s ∧ '/' ∉ s) :
    climb [] (segments (joinSegments ss)) = some ss.reverse := by
  by_cases hne : ss = []
  · subst hne
    rfl
  · rw [segments_joinSegments hne fun s hs => (h s hs).2, climb_of_ordinary fun s hs => (h s hs).1,
      List.append_nil]

theorem normalizePath?_joinSegments {ss : List (List Char)}
    (h : ∀ s ∈ ss, Ordinary s ∧ '/' ∉ s) :
    normalizePath? (joinSegments ss) = some (joinSegments ss) := by
  rw [normalizePath?, climb_segments_joinSegments h, Option.map_some, List.reverse_reverse]

/-! ## Schemes -/

theorem splitAtMark_eq_some {name s path : List Char} (h : splitAtMark name = some (s, path)) :
    name = s ++ ':' :: '/' :: '/' :: path := by
  fun_induction splitAtMark name generalizing s path with
  | case1 => cases h
  | case2 rest =>
    cases h
    rfl
  | case3 c rest hmark ih =>
    obtain ⟨⟨t, p⟩, hrest, heq⟩ := Option.map_eq_some_iff.mp h
    cases heq
    rw [ih hrest, List.cons_append]

/-- Where a name is divided does not depend on the path behind the mark. -/
theorem splitAtMark_append {name s path : List Char} (h : splitAtMark name = some (s, path))
    (other : List Char) :
    splitAtMark (s ++ ':' :: '/' :: '/' :: other) = some (s, other) := by
  fun_induction splitAtMark name generalizing s path with
  | case1 => cases h
  | case2 rest =>
    cases h
    rfl
  | case3 c rest hmark ih =>
    obtain ⟨⟨t, p⟩, hrest, heq⟩ := Option.map_eq_some_iff.mp h
    cases heq
    have hname := splitAtMark_eq_some hrest
    rw [List.cons_append, splitAtMark, ih hrest, Option.map_some]
    -- no mark begins before the one that was found: it would end in the same characters
    rintro rest' rfl hrest'
    rcases t with _ | ⟨a, _ | ⟨b, u⟩⟩
    · cases hrest'
    · cases hrest'
    · cases hrest'
      exact hmark _ rfl hname

/-- No mark stands in a path without empty segments. -/
theorem splitAtMark_eq_none {path : List Char} (h : [] ∉ segments path) :
    splitAtMark path = none := by
  cases hsplit : splitAtMark path with
  | none => rfl
  | some r =>
    -- between the slashes of a mark stands an empty segment
    rw [splitAtMark_eq_some hsplit, List.append_cons, segments_append_slash] at h
    exact absurd (List.mem_append_right _ List.mem_cons_self) h

theorem splitScheme_parts (name : List Char) :
    (splitScheme name).1 ++ (splitScheme name).2 = name := by
  unfold splitScheme
  split
  · next hsplit =>
    rw [splitAtMark_eq_some hsplit, List.append_assoc]
    rfl
  · rfl

theorem splitScheme_of_none {name : List Char} (h : splitAtMark name = none) :
    splitScheme name = ([], name) := by
  rw [splitScheme, h]

/-- A path without a mark may take the place of the one behind a scheme. -/
theorem splitScheme_append (name : List Char) {path : List Char} (h : splitAtMark path = none) :
    splitScheme ((splitScheme name).1 ++ path) = ((splitScheme name).1, path) := by
  rcases hsplit : splitAtMark name with _ | ⟨_ | ⟨c, s⟩, rest⟩
  · rw [splitScheme_of_none hsplit]
    exact splitScheme_of_none h
  · -- a mark at the very beginning makes no scheme
    have hname : splitScheme name = ([], name) := by rw [splitScheme, hsplit]
    rw [hname]
    exact splitScheme_of_none h
  · have hname : splitScheme name = (c :: s ++ [':', '/', '/'], rest) := by
      rw [splitScheme, hsplit]
    have hother : splitAtMark (c :: s ++ ([':', '/', '/'] ++ path)) = some (c :: s, path) :=
      splitAtMark_append hsplit path
    rw [hname, List.append_assoc, splitScheme, hother]

/-! ## Names -/

/-- A name without forbidden characters has a normal form if its path has one. -/
theorem normalizeChars_eq_ok_iff {name normal : List Char} :
    normalizeChars name = .ok normal ↔
      '\\' ∉ name ∧ '\x00' ∉ name ∧
        ∃ path, normalizePath? (splitScheme name).2 = some path ∧
          normal = (splitScheme name).1 ++ path := by
  unfold normalizeChars
  split
  · next hbackslash => exact iff_of_false nofun fun h => h.1 hbackslash
  · next hbackslash =>
    split
    · next hnul => exact iff_of_false nofun fun h => h.2.1 hnul
    · next hnul =>
      cases normalizePath? (splitScheme name).2 with
      | none => exact iff_of_false nofun fun ⟨_, _, _, hpath, _⟩ => nomatch hpath
      | some path =>
        constructor
        · intro h
          cases h
          exact ⟨hbackslash, hnul, path, rfl, rfl⟩
        · rintro ⟨-, -, _, hpath, rfl⟩
          cases hpath
          rfl

/-- The normal form of a name: its scheme, and a path of ordinary segments. -/
theorem normalizeChars_eq_ok {name normal : List Char} (h : normalizeChars name = .ok normal) :
    '\\' ∉ name ∧ '\x00' ∉ name ∧
      ∃ ss, normal = (splitScheme name).1 ++ joinSegments ss ∧
        ∀ s ∈ ss, Ordinary s ∧ s ∈ segments (splitScheme name).2 := by
  obtain ⟨hbackslash, hnul, path, hpath, rfl⟩ := normalizeChars_eq_ok_iff.mp h
  obtain ⟨ss, rfl, hss⟩ := normalizePath?_eq_some hpath
  exact ⟨hbackslash, hnul, ss, rfl, hss⟩

/-- A character of a normal form is one of the name, or a slash. -/
theorem mem_of_mem_normal {name normal : List Char} (h : normalizeChars name = .ok normal)
    {c : Char} (hc : c ∈ normal) : c = '/' ∨ c ∈ name := by
  obtain ⟨-, -, ss, rfl, hss⟩ := normalizeChars_eq_ok h
  rw [← splitScheme_parts name]
  rcases List.mem_append.mp hc with hc | hc
  · exact .inr (List.mem_append_left _ hc)
  · rcases mem_joinSegments hc with hc | ⟨s, hs, hc⟩
    · exact .inl hc
    · exact .inr (List.mem_append_right _ ((mem_segments (hss s hs).2).2 c hc))

/-- A character that a name does not have its normal form does not have either. -/
theorem not_mem_normal {name normal : List Char} (h : normalizeChars name = .ok normal) {c : Char}
    (hslash : c ≠ '/') (hc : c ∉ name) : c ∉ normal := fun hmem =>
  (mem_of_mem_normal h hmem).elim hslash hc

/-- No scheme arises in a path of ordinary segments: none of them is empty. -/
theorem splitAtMark_joinSegments {ss : List (List Char)} (h : ∀ s ∈ ss, Ordinary s ∧ '/' ∉ s) :
    splitAtMark (joinSegments ss) = none := by
  by_cases hne : ss = []
  · subst hne
    rfl
  · apply splitAtMark_eq_none
    rw [segments_joinSegments hne fun s hs => (h s hs).2]
    exact fun hempty => (h [] hempty).1.1 rfl

theorem normalizeChars_normal {name normal : List Char} (h : normalizeChars name = .ok normal) :
    normalizeChars normal = .ok normal := by
  have hbackslash' : '\\' ∉ normal := not_mem_normal h (by decide) (normalizeChars_eq_ok h).1
  have hnul' : '\x00' ∉ normal := not_mem_normal h (by decide) (normalizeChars_eq_ok h).2.1
  obtain ⟨-, -, ss, rfl, hss⟩ := normalizeChars_eq_ok h
  have hordinary : ∀ s ∈ ss, Ordinary s ∧ '/' ∉ s := fun s hs =>
    ⟨(hss s hs).1, (mem_segments (hss s hs).2).1⟩
  rw [normalizeChars, if_neg hbackslash', if_neg hnul',
    splitScheme_append name (splitAtMark_joinSegments hordinary)]
  dsimp only
  rw [normalizePath?_joinSegments hordinary]

/-- The characters of the normal form of a name are the normal form of its characters. -/
theorem normalize_eq_ok_iff {name normal : String} :
    normalize name = .ok normal ↔ normalizeChars name.toList = .ok normal.toList := by
  unfold normalize
  split
  · next cs hchars =>
    rw [hchars, Except.ok.injEq, Except.ok.injEq, ← String.toList_inj, String.toList_ofList]
  · next d hchars =>
    rw [hchars]
    exact iff_of_false nofun nofun

/-- A normal form is its own normal form. -/
theorem normalize_normal {name normal : String} (h : normalize name = .ok normal) :
    normalize normal = .ok normal :=
  normalize_eq_ok_iff.mpr (normalizeChars_normal (normalize_eq_ok_iff.mp h))

end Name

end Stencil

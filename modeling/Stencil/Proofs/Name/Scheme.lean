import Stencil.Proofs.Name.Normalization

/-!
# Names under their schemes

A normal form carries the scheme of its name over as it is written. So the whole of it is made of
ordinary segments exactly where the scheme is, whatever stands in the path.

A target without a mark of its own stands for a path under the scheme of the template that it is
written in. Where the directory of that template and the target meet, no mark can arise; so whatever
the target climbs, its normal form is found under that scheme, and above its root there is nothing.

## Main definitions

* `Name.wholeSegments` are the segments of a name with its scheme.
* `Name.Canonical` names are made of ordinary segments as a whole.
* `Name.pathFrom base target` is the path that a target stands for, under the scheme of its base.

## Main results

* `Name.segments_of_scheme`: where the segments of a name with a scheme are.
* `Name.canonical_iff_scheme_ordinary`: which normal forms are canonical.
* `Name.splitScheme_locate`: a target without a mark keeps the scheme of its base.
* `Name.resolve_within_scheme`: what such a target resolves to.
-/

namespace Stencil

namespace Name

/-! ## Whole names -/

/-- The segments of a scheme up to its colon. -/
def schemeSegments (scheme : List Char) : List (List Char) :=
  if scheme = [] then [] else segments scheme.dropLast.dropLast

/-- The segments of a path. An empty path has none. -/
def pathSegments (path : List Char) : List (List Char) :=
  if path = [] then [] else segments path

/-- The segments of a name, but for the empty one between the slashes that end its scheme. -/
def wholeSegments (name : List Char) : List (List Char) :=
  schemeSegments (splitScheme name).1 ++ pathSegments (splitScheme name).2

/-- A name that is made of ordinary segments as a whole and does not begin with a slash. -/
structure Canonical (name : List Char) : Prop where
  leading : name.head? ≠ some '/'
  ordinary : ∀ s ∈ wholeSegments name, Ordinary s

/-- A scheme is a text that is not empty, and a mark. -/
theorem splitScheme_cases (name : List Char) :
    splitScheme name = ([], name) ∨
      ∃ c s path, splitAtMark name = some (c :: s, path) ∧
        splitScheme name = (c :: s ++ [':', '/', '/'], path) := by
  rcases hsplit : splitAtMark name with _ | ⟨_ | ⟨c, s⟩, path⟩
  · exact .inl (by rw [splitScheme, hsplit])
  · exact .inl (by rw [splitScheme, hsplit])
  · exact .inr ⟨c, s, path, rfl, by rw [splitScheme, hsplit]⟩

theorem schemeSegments_mark (s : List Char) :
    schemeSegments (s ++ [':', '/', '/']) = segments (s ++ [':']) := by
  have hcolon : (s ++ [':', '/', '/']).dropLast.dropLast = s ++ [':'] := by simp
  rw [schemeSegments, if_neg (by simp), hcolon]

/-- Between the slashes that end a scheme stands one empty segment; all others are those of the
scheme and of the path. -/
theorem segments_of_scheme {name : List Char} (h : (splitScheme name).1 ≠ []) :
    segments name =
      schemeSegments (splitScheme name).1 ++ [] :: segments (splitScheme name).2 := by
  rcases splitScheme_cases name with hname | ⟨c, s, path, hsplit, hname⟩
  · rw [hname] at h
    exact absurd rfl h
  · rw [hname, schemeSegments_mark, splitAtMark_eq_some hsplit, List.append_cons,
      segments_append_slash]
    rfl

/-- A slash at the very beginning of a name stands behind an empty segment. -/
theorem nil_mem_wholeSegments {name : List Char} (h : name.head? = some '/') :
    [] ∈ wholeSegments name := by
  rcases splitScheme_cases name with hname | ⟨c, s, path, hsplit, hname⟩
  · have hne : name ≠ [] := by
      rintro rfl
      cases h
    rw [wholeSegments, hname, pathSegments, if_neg hne]
    exact List.mem_append_right _ (nil_mem_segments_of_leading h)
  · -- the slash belongs to the scheme
    rw [splitAtMark_eq_some hsplit] at h
    rw [wholeSegments, hname, schemeSegments_mark]
    exact List.mem_append_left _ (nil_mem_segments_of_leading h)

theorem canonical_iff {name : List Char} :
    Canonical name ↔ ∀ s ∈ wholeSegments name, Ordinary s :=
  ⟨Canonical.ordinary, fun h => ⟨fun hslash => (h [] (nil_mem_wholeSegments hslash)).1 rfl, h⟩⟩

/-- Nothing but its scheme keeps a normal form from being canonical. -/
theorem canonical_normal_iff {name normal : List Char} (h : normalizeChars name = .ok normal) :
    Canonical normal ↔ ∀ s ∈ schemeSegments (splitScheme name).1, Ordinary s := by
  obtain ⟨ss, -, -, -, hsplit, hclean⟩ := normalForm_of_ok h
  have hpath : ∀ s ∈ pathSegments (joinSegments ss), Ordinary s := by
    unfold pathSegments
    split
    · exact List.forall_mem_nil _
    · next hne => exact hclean.ordinary hne
  rw [canonical_iff, wholeSegments, hsplit, List.forall_mem_append]
  exact and_iff_left hpath

/-- Under one scheme, names have one normal form if and only if their paths lead to one place. -/
theorem normal_eq_iff {name name' normal normal' : List Char}
    (hscheme : (splitScheme name).1 = (splitScheme name').1)
    (h : normalizeChars name = .ok normal) (h' : normalizeChars name' = .ok normal') :
    normal = normal' ↔
      climb [] (segments (splitScheme name).2) = climb [] (segments (splitScheme name').2) := by
  obtain ⟨-, -, path, hpath, rfl⟩ := normalizeChars_eq_ok_iff.mp h
  obtain ⟨-, -, path', hpath', rfl⟩ := normalizeChars_eq_ok_iff.mp h'
  obtain ⟨out, hclimb, rfl⟩ := Option.map_eq_some_iff.mp hpath
  obtain ⟨out', hclimb', rfl⟩ := Option.map_eq_some_iff.mp hpath'
  rw [hscheme, List.append_cancel_left_eq, hclimb, hclimb', Option.some.injEq]
  refine ⟨fun hjoined => ?_, fun hout => by rw [hout]⟩
  -- a walk along the joined segments ends in just these segments
  have hwalk : ∀ {p : List Char} {out : List (List Char)}, climb [] (segments p) = some out →
      climb [] (segments (joinSegments out.reverse)) = some out := by
    intro p out hp
    have hordinary : ∀ s ∈ out.reverse, Ordinary s ∧ '/' ∉ s := fun s hs =>
      (ordinary_of_climb hp s hs).imp_right fun hsegment => (mem_segments hsegment).1
    rw [climb_segments_joinSegments hordinary, List.reverse_reverse]
  have hsame := hwalk hclimb
  rw [hjoined, hwalk hclimb'] at hsame
  exact (Option.some.inj hsame).symm

/-- **A normal form is canonical exactly if its scheme is made of ordinary segments.** This holds of
the normal form of a name, and of what the name resolves to as a target, where the scheme is that of
the name that it stands for. Under one scheme there is one normal form for each place to which paths
lead. -/
theorem canonical_iff_scheme_ordinary (name base : String) :
    (∀ normal, normalize name = .ok normal →
        (Canonical normal.toList ↔
          ∀ s ∈ schemeSegments (splitScheme name.toList).1, Ordinary s)) ∧
      (∀ normal, resolve base name = .ok normal →
        (Canonical normal.toList ↔
          ∀ s ∈ schemeSegments (splitScheme (locate base.toList name.toList)).1, Ordinary s)) ∧
      ∀ name' normal normal', normalize name = .ok normal → normalize name' = .ok normal' →
        (splitScheme name.toList).1 = (splitScheme name'.toList).1 →
        (normal = normal' ↔
          climb [] (segments (splitScheme name.toList).2) =
            climb [] (segments (splitScheme name'.toList).2)) := by
  refine ⟨fun normal h => canonical_normal_iff (normalize_eq_ok_iff.mp h), fun normal h => ?_,
    fun name' normal normal' h h' hscheme => ?_⟩
  · have hchars := normalize_eq_ok_iff.mp h
    rw [String.toList_ofList] at hchars
    exact canonical_normal_iff hchars
  · rw [← String.toList_inj]
    exact normal_eq_iff hscheme (normalize_eq_ok_iff.mp h) (normalize_eq_ok_iff.mp h')

/-- The normal form of a name under an ordinary scheme is canonical. -/
theorem canonical_under_scheme :
    normalize "s3://a/./b//../c" = .ok "s3://a/c" ∧ Canonical "s3://a/c".toList := by
  have h : normalize "s3://a/./b//../c" = .ok "s3://a/c" := by rfl
  exact ⟨h, ((canonical_iff_scheme_ordinary _ "").1 _ h).mpr (by decide)⟩

/-- A slash in front of a scheme stays there. -/
theorem slash_before_scheme_kept :
    normalize "/a://b" = .ok "/a://b" ∧ ¬ Canonical "/a://b".toList :=
  ⟨rfl, fun h => h.leading rfl⟩

/-! ## Targets without a mark -/

/-- The characters that end a scheme. -/
def mark : List Char := [':', '/', '/']

/-- The path that a target without a scheme stands for under the scheme of its base: it begins at
the root if the target begins with a slash, and otherwise in the directory of the base. -/
def pathFrom (base : List Char) : List Char → List Char
  | '/' :: rest => rest
  | target => directory (splitScheme base).2 ++ target

theorem splitAtMark_eq_none_iff {name : List Char} :
    splitAtMark name = none ↔ ¬ mark <:+: name := by
  fun_induction splitAtMark name with
  | case1 => exact iff_of_true rfl (by decide)
  | case2 rest => exact iff_of_false (Option.some_ne_none _) fun h => h ⟨[], rest, rfl⟩
  | case3 c rest hmark ih =>
    rw [Option.map_eq_none_iff, ih, List.infix_cons_iff, not_or]
    refine (and_iff_right ?_).symm
    rintro ⟨t, ht⟩
    cases ht
    exact hmark t rfl rfl

theorem splitScheme_of_unmarked {name : List Char} (h : ¬ mark <:+: name) :
    splitScheme name = ([], name) :=
  splitScheme_of_none (splitAtMark_eq_none_iff.mpr h)

/-- Behind a scheme any path may stand. -/
theorem splitScheme_behind {name : List Char} (h : (splitScheme name).1 ≠ []) (path : List Char) :
    splitScheme ((splitScheme name).1 ++ path) = ((splitScheme name).1, path) := by
  rcases splitScheme_cases name with hname | ⟨c, s, rest, hsplit, hname⟩
  · rw [hname] at h
    exact absurd rfl h
  · have hother : splitAtMark (c :: s ++ ([':', '/', '/'] ++ path)) = some (c :: s, path) :=
      splitAtMark_append hsplit path
    rw [hname, List.append_assoc, splitScheme, hother]

theorem directory_append_slash (p q : List Char) :
    directory (p ++ '/' :: q) = p ++ '/' :: directory q := by
  have hreverse : (p ++ '/' :: q).reverse = q.reverse ++ '/' :: p.reverse := by simp
  rw [directory, hreverse, List.dropWhile_append]
  split
  · next hnone =>
    rw [directory, List.isEmpty_iff.mp hnone]
    simp
  · simp [directory]

/-- The directory of a path is a part of it in front that is empty or ends with a slash. -/
theorem directory_spec (path : List Char) :
    directory path <+: path ∧ (directory path = [] ∨ (directory path).getLast? = some '/') := by
  constructor
  · have hsuffix := List.reverse_prefix.mpr (List.dropWhile_suffix (l := path.reverse) (· ≠ '/'))
    rwa [List.reverse_reverse] at hsuffix
  · rw [directory, List.getLast?_reverse, List.reverse_eq_nil_iff]
    cases hrest : path.reverse.dropWhile (· ≠ '/') with
    | nil => exact .inl rfl
    | cons c rest =>
      have hc := List.head?_dropWhile_not (· ≠ '/') path.reverse
      rw [hrest] at hc
      exact .inr (by simpa using hc)

/-- No mark arises where a directory and a target meet that does not begin with a slash. -/
theorem unmarked_append {front target : List Char} (hfront : ¬ mark <:+: front)
    (hend : front = [] ∨ front.getLast? = some '/') (htarget : ¬ mark <:+: target)
    (hslash : target.head? ≠ some '/') : ¬ mark <:+: front ++ target := by
  rw [List.infix_append_iff]
  rintro (h | h | ⟨ending, start, hmark, hending, hstart⟩)
  · exact hfront h
  · exact htarget h
  -- a mark across the border ends with a slash in the target, or with its colon in the directory
  rcases ending with _ | ⟨a, _ | ⟨b, _ | ⟨c, d⟩⟩⟩
  · cases hmark
    exact htarget hstart.isInfix
  · cases hmark
    obtain ⟨t, rfl⟩ := hending
    rcases hend with h | h
    · exact absurd h (by simp)
    · rw [List.getLast?_concat] at h
      cases h
  · cases hmark
    obtain ⟨t, rfl⟩ := hstart
    exact hslash rfl
  · obtain ⟨rfl, rfl, rfl, hnil⟩ : a = ':' ∧ b = '/' ∧ c = '/' ∧ d ++ start = [] := by
      simp only [mark, List.cons_append, List.cons.injEq] at hmark
      obtain ⟨ha, hb, hc, hd⟩ := hmark
      exact ⟨ha.symm, hb.symm, hc.symm, hd.symm⟩
    rw [(List.append_eq_nil_iff.mp hnil).1] at hending
    exact hfront hending.isInfix

/-- Without marks in the base and in the target, none is in the path that the target stands for. -/
theorem unmarked_pathFrom {base target : List Char} (hbase : ¬ mark <:+: base)
    (h : ¬ mark <:+: target) : ¬ mark <:+: pathFrom base target := by
  unfold pathFrom
  split
  · next rest => exact fun hrest => h (hrest.trans (List.suffix_cons '/' rest).isInfix)
  · next hslash =>
    rw [splitScheme_of_unmarked hbase]
    obtain ⟨hpart, hend⟩ := directory_spec base
    have hfront : ¬ mark <:+: directory base := fun hmark => hbase (hmark.trans hpart.isInfix)
    refine unmarked_append hfront hend h fun hhead => ?_
    obtain ⟨rest, rfl⟩ := List.head?_eq_some_iff.mp hhead
    exact hslash rest rfl

/-- A mark at the very beginning of the base is no scheme, and stays in front of what it begins. -/
theorem splitScheme_pathFrom_of_leading {base rest target : List Char}
    (hbase : splitAtMark base = some ([], rest)) (h : ¬ mark <:+: target) :
    splitScheme (pathFrom base target) = ([], pathFrom base target) := by
  have hscheme : splitScheme base = ([], base) := by rw [splitScheme, hbase]
  unfold pathFrom
  split
  · next rest =>
    exact splitScheme_of_unmarked fun hrest => h (hrest.trans (List.suffix_cons '/' rest).isInfix)
  · have hdirectory : directory (splitScheme base).2 = ':' :: '/' :: '/' :: directory rest := by
      rw [hscheme, splitAtMark_eq_some hbase]
      exact directory_append_slash [':', '/'] rest
    rw [hdirectory]
    rfl

/-- **A target without a mark keeps the scheme of its base**, and all the rest of the name that it
stands for is its path. -/
theorem splitScheme_locate {base target : List Char} (h : ¬ mark <:+: target) :
    locate base target = (splitScheme base).1 ++ pathFrom base target ∧
      splitScheme (locate base target) = ((splitScheme base).1, pathFrom base target) := by
  have hlocate : locate base target = (splitScheme base).1 ++ pathFrom base target := by
    unfold locate
    rw [splitScheme_of_unmarked h, if_neg (not_not_intro rfl)]
    split
    · rfl
    · next hslash => rw [pathFrom.eq_2 base target hslash, List.append_assoc]
  refine ⟨hlocate, ?_⟩
  rw [hlocate]
  rcases hsplit : splitAtMark base with _ | ⟨_ | ⟨c, s⟩, rest⟩
  · have hbase : ¬ mark <:+: base := splitAtMark_eq_none_iff.mp hsplit
    rw [splitScheme_of_none hsplit]
    exact splitScheme_of_unmarked (unmarked_pathFrom hbase h)
  · have hbase : splitScheme base = ([], base) := by rw [splitScheme, hsplit]
    rw [hbase]
    exact splitScheme_pathFrom_of_leading hsplit h
  · apply splitScheme_behind
    rw [splitScheme, hsplit]
    exact List.cons_ne_nil _ _

/-- A path that leads above the root is the last of the defects of a name. -/
theorem normalizeChars_eq_aboveRoot_iff {name : List Char} :
    normalizeChars name = .error .aboveRoot ↔
      '\\' ∉ name ∧ '\x00' ∉ name ∧ Oversteps (segments (splitScheme name).2) := by
  rw [← normalizePath?_eq_none_iff, normalizeChars]
  split
  · next hbackslash => exact iff_of_false (by simp) fun h => h.1 hbackslash
  · next hbackslash =>
    split
    · next hnul => exact iff_of_false (by simp) fun h => h.2.1 hnul
    · next hnul =>
      rw [and_iff_right hbackslash, and_iff_right hnul]
      cases normalizePath? (splitScheme name).2 <;> simp

theorem normalize_eq_error_defect_iff {name : String} {defect : Defect} :
    normalize name = .error (name, defect) ↔ normalizeChars name.toList = .error defect := by
  unfold normalize
  cases normalizeChars name.toList <;> simp

/-- **Targets without a mark stay under the scheme of their base.** What such a target resolves to
has exactly that scheme, or none if the base has none; its path is what the segments of the
directory and of the target can be simplified to, all of them ordinary. It resolves to nothing
exactly if a character is forbidden or some of the first segments go up more often than down, and
then without forbidden characters the defect is that they lead above the root. -/
theorem resolve_within_scheme (base target : String) (h : ¬ mark <:+: target.toList) :
    (∀ normal, resolve base target = .ok normal →
        ∃ ss, Relation.ReflTransGen Shortens (segments (pathFrom base.toList target.toList)) ss ∧
          (∀ s ∈ ss, Ordinary s) ∧
          splitScheme normal.toList = ((splitScheme base.toList).1, joinSegments ss) ∧
          CleanPath (joinSegments ss)) ∧
      ((∃ x, resolve base target = .error x) ↔
        '\\' ∈ locate base.toList target.toList ∨ '\x00' ∈ locate base.toList target.toList ∨
          Oversteps (segments (pathFrom base.toList target.toList))) ∧
      (resolve base target =
          .error (String.ofList (locate base.toList target.toList), .aboveRoot) ↔
        '\\' ∉ locate base.toList target.toList ∧ '\x00' ∉ locate base.toList target.toList ∧
          Oversteps (segments (pathFrom base.toList target.toList))) := by
  have hsplit := (@splitScheme_locate base.toList _ h).2
  refine ⟨fun normal hnormal => ?_, ?_, ?_⟩
  · have hchars := normalize_eq_ok_iff.mp hnormal
    rw [String.toList_ofList] at hchars
    obtain ⟨ss, hshortens, hordinary, -, hparts, hclean⟩ := normalForm_of_ok hchars
    rw [hsplit] at hshortens hparts
    exact ⟨ss, hshortens, hordinary, hparts, hclean⟩
  · rw [resolve, normalize_eq_error_iff, normalizeChars_eq_error_iff, String.toList_ofList, hsplit]
  · rw [resolve, normalize_eq_error_defect_iff, normalizeChars_eq_aboveRoot_iff,
      String.toList_ofList, hsplit]

/-- Under a scheme, targets climb to the root of the scheme and no further. -/
theorem resolve_climbs_to_scheme :
    ¬ mark <:+: "../c".toList ∧ resolve "lib://a/b" "../c" = .ok "lib://c" ∧
      (splitScheme "lib://c".toList).1 = (splitScheme "lib://a/b".toList).1 ∧
      ¬ mark <:+: "../../c".toList ∧
      resolve "lib://a/b" "../../c" = .error ("lib://a/../../c", .aboveRoot) := by
  have hnear : ¬ mark <:+: "../c".toList := splitAtMark_eq_none_iff.mp rfl
  have hfar : ¬ mark <:+: "../../c".toList := splitAtMark_eq_none_iff.mp rfl
  have hresolve : resolve "lib://a/b" "../c" = .ok "lib://c" := by rfl
  obtain ⟨ss, -, -, hsplit, -⟩ := (resolve_within_scheme "lib://a/b" "../c" hnear).1 _ hresolve
  -- the second `..` of the far target leads above the root
  have hoversteps : Oversteps (segments (pathFrom "lib://a/b".toList "../../c".toList)) :=
    ⟨[['a'], ['.', '.'], ['.', '.']], ⟨[['c']], rfl⟩, by decide⟩
  have habove := (resolve_within_scheme "lib://a/b" "../../c" hfar).2.2.mpr
    ⟨by decide, by decide, hoversteps⟩
  exact ⟨hnear, hresolve, by rw [hsplit], hfar, habove⟩

end Name

end Stencil

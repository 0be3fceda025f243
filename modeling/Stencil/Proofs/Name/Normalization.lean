import Mathlib.Logic.Relation
import Stencil.Proofs.Store.Memory

/-!
# Which names have a normal form, and which one

A walk along the segments of a path stays within the root exactly if it never has gone up more often
than down. Then the path has a normal form, which is what is left of its segments when empty ones
and `.` are dropped and each `..` takes an ordinary segment before it along. The walk along two
paths, one behind the other, goes on from where the first one led; so the first one may as well be
in normal form.

## Main definitions

* `Name.Oversteps` says that segments lead above the root.
* `Name.Shortens` is one simplification of segments.
* `Name.CleanPath` is a path as normal forms have them.

## Main results

* `Name.climb_eq_none_iff`: when a walk is refused.
* `Name.climb_eq_some_iff`: where a walk ends.
* `Name.normalizeChars_append`: a path behind another one, and behind its normal form.
* `Name.normalizes_within_root`: which names have a normal form, and what it is like.
-/

namespace Stencil

namespace Name

/-- How often segments lead down: the ordinary ones do. -/
def downs (segs : List (List Char)) : Nat :=
  segs.countP fun s => Ordinary s

/-- How often segments lead up: every `..` does. -/
def ups (segs : List (List Char)) : Nat :=
  segs.count ['.', '.']

/-- Some of the first segments lead up more often than down. -/
def Oversteps (segs : List (List Char)) : Prop :=
  ∃ front, front <+: segs ∧ downs front < ups front

/-- One simplification of segments: an empty one or `.` is dropped, or an ordinary one together with
the `..` behind it. -/
inductive Shortens : List (List Char) → List (List Char) → Prop
  | stay {s : List Char} (hs : s = [] ∨ s = ['.']) (before after : List (List Char)) :
      Shortens (before ++ s :: after) (before ++ after)
  | back {s : List Char} (hs : Ordinary s) (before after : List (List Char)) :
      Shortens (before ++ s :: ['.', '.'] :: after) (before ++ after)

/-- A path as normal forms have them: its segments, if there are any, are ordinary, and its slashes
stand between them. -/
structure CleanPath (path : List Char) : Prop where
  ordinary : path ≠ [] → ∀ s ∈ segments path, Ordinary s
  leading : path.head? ≠ some '/'
  trailing : path.getLast? ≠ some '/'
  repeated : ¬ ['/', '/'] <:+: path

/-! ## The steps of a walk -/

section

variable {s : List Char} {done segs : List (List Char)}

/-- The three kinds of segments. -/
theorem stays_or_up_or_ordinary (s : List Char) :
    (s = [] ∨ s = ['.']) ∨ s = ['.', '.'] ∨ Ordinary s := by
  unfold Ordinary
  by_cases hempty : s = []
  · exact .inl (.inl hempty)
  by_cases hdot : s = ['.']
  · exact .inl (.inr hdot)
  by_cases hdots : s = ['.', '.']
  · exact .inr (.inl hdots)
  · exact .inr (.inr ⟨hempty, hdot, hdots⟩)

theorem climb_stay (hs : s = [] ∨ s = ['.']) : climb done (s :: segs) = climb done segs := by
  rw [climb.eq_def]
  exact if_pos hs

theorem climb_root : climb [] (['.', '.'] :: segs) = none := by
  rw [climb.eq_def]
  rfl

theorem climb_up (d : List Char) : climb (d :: done) (['.', '.'] :: segs) = climb done segs := by
  rw [climb.eq_def]
  rfl

theorem climb_down (hs : Ordinary s) : climb done (s :: segs) = climb (s :: done) segs := by
  rw [climb.eq_def]
  dsimp only
  rw [if_neg (not_or.mpr ⟨hs.1, hs.2.1⟩), if_neg hs.2.2]

end

/-- A walk along more segments goes on from where the first ones led. -/
theorem climb_append (done as bs : List (List Char)) :
    climb done (as ++ bs) = (climb done as).bind fun reached => climb reached bs := by
  induction as generalizing done with
  | nil => rfl
  | cons s as ih =>
    rw [List.cons_append]
    rcases stays_or_up_or_ordinary s with hs | rfl | hs
    · rw [climb_stay hs, climb_stay hs, ih]
    · cases done with
      | nil => rw [climb_root, climb_root, Option.bind_none]
      | cons d up => rw [climb_up, climb_up, ih]
    · rw [climb_down hs, climb_down hs, ih]

/-! ## Where a walk is refused -/

theorem downs_cons (s : List Char) (segs : List (List Char)) :
    downs (s :: segs) = downs segs + if Ordinary s then 1 else 0 := by
  simp [downs, List.countP_cons]

theorem ups_cons (s : List Char) (segs : List (List Char)) :
    ups (s :: segs) = ups segs + if s = ['.', '.'] then 1 else 0 := by
  simp [ups, List.count_cons]

/-- A segment in front adds what it counts itself to both counts, unless none are looked at. -/
theorem exists_prefix_cons {n : Nat} {s : List Char} {segs : List (List Char)} :
    (∃ front, front <+: s :: segs ∧ n + downs front < ups front) ↔
      ∃ front, front <+: segs ∧ n + downs (s :: front) < ups (s :: front) := by
  constructor
  · rintro ⟨front, hfront, h⟩
    rcases List.prefix_cons_iff.mp hfront with rfl | ⟨rest, rfl, hrest⟩
    · exact absurd h (Nat.not_lt_zero _)
    · exact ⟨rest, hrest, h⟩
  · rintro ⟨front, hfront, h⟩
    exact ⟨s :: front, List.prefix_cons_iff.mpr (.inr ⟨front, rfl, hfront⟩), h⟩

/-- **A walk is refused exactly where it has gone up more often than down**, the segments that it
began with counted among those that lead down. -/
theorem climb_eq_none_iff {done segs : List (List Char)} :
    climb done segs = none ↔
      ∃ front, front <+: segs ∧ done.length + downs front < ups front := by
  induction segs generalizing done with
  | nil =>
    refine iff_of_false nofun ?_
    rintro ⟨front, hfront, hcount⟩
    rw [List.prefix_nil.mp hfront] at hcount
    exact absurd hcount (Nat.not_lt_zero _)
  | cons s segs ih =>
    rw [exists_prefix_cons]
    rcases stays_or_up_or_ordinary s with hs | rfl | hs
    · have hordinary : ¬ Ordinary s := fun h => hs.elim h.1 h.2.1
      have hup : s ≠ ['.', '.'] := by rcases hs with rfl | rfl <;> decide
      simp only [climb_stay hs, ih, downs_cons, ups_cons, if_neg hordinary, if_neg hup,
        Nat.add_zero]
    · -- a step up takes back one of the steps down, those at the beginning among them
      have hordinary : ¬ Ordinary ['.', '.'] := by decide
      simp only [downs_cons, ups_cons, if_neg hordinary, if_pos, Nat.add_zero]
      cases done with
      | nil =>
        -- at the root the first step up is refused
        rw [climb_root]
        exact iff_of_true rfl ⟨[], List.nil_prefix, Nat.zero_lt_one⟩
      | cons d up =>
        rw [climb_up, ih, List.length_cons]
        refine exists_congr fun front => and_congr_right fun _ => ?_
        omega
    · simp only [climb_down hs, ih, downs_cons, ups_cons, if_pos hs, if_neg hs.2.2, Nat.add_zero,
        List.length_cons]
      refine exists_congr fun front => and_congr_right fun _ => ?_
      omega

theorem normalizePath?_eq_none_iff {path : List Char} :
    normalizePath? path = none ↔ Oversteps (segments path) := by
  rw [normalizePath?, Option.map_eq_none_iff, climb_eq_none_iff]
  simp only [List.length_nil, Nat.zero_add, Oversteps]

/-- A name has no normal form exactly if one of its characters is forbidden or its path leads above
the root. -/
theorem normalizeChars_eq_error_iff {name : List Char} :
    (∃ defect, normalizeChars name = .error defect) ↔
      '\\' ∈ name ∨ '\x00' ∈ name ∨ Oversteps (segments (splitScheme name).2) := by
  rw [← normalizePath?_eq_none_iff, normalizeChars]
  split
  · next hbackslash => exact iff_of_true ⟨_, rfl⟩ (.inl hbackslash)
  · next hbackslash =>
    split
    · next hnul => exact iff_of_true ⟨_, rfl⟩ (.inr (.inl hnul))
    · next hnul =>
      cases hpath : normalizePath? (splitScheme name).2 with
      | none => exact iff_of_true ⟨_, rfl⟩ (.inr (.inr rfl))
      | some path =>
        apply iff_of_false
        · rintro ⟨defect, h⟩
          cases h
        · rintro (h | h | h)
          · exact hbackslash h
          · exact hnul h
          · cases h

/-! ## Where a walk ends -/

/-- A simplification does not change where a walk leads. -/
theorem Shortens.climb_eq {as bs : List (List Char)} (h : Shortens as bs)
    (done : List (List Char)) : climb done as = climb done bs := by
  cases h with
  | stay hs before after => simp only [climb_append, climb_stay hs]
  | back hs before after => simp only [climb_append, climb_down hs, climb_up]

/-- A walk from ordinary segments simplifies those and the ones it comes along to the ones in which
it ends. -/
theorem shortens_of_climb {done segs out : List (List Char)} (hdone : ∀ s ∈ done, Ordinary s)
    (h : climb done segs = some out) :
    Relation.ReflTransGen Shortens (done.reverse ++ segs) out.reverse := by
  induction segs generalizing done with
  | nil =>
    cases h
    rw [List.append_nil]
  | cons s segs ih =>
    rcases stays_or_up_or_ordinary s with hs | rfl | hs
    · rw [climb_stay hs] at h
      exact (ih hdone h).head (.stay hs done.reverse segs)
    · cases done with
      | nil =>
        rw [climb_root] at h
        cases h
      | cons d up =>
        rw [climb_up] at h
        have hback : Shortens ((d :: up).reverse ++ ['.', '.'] :: segs) (up.reverse ++ segs) := by
          rw [List.reverse_cons, List.append_assoc]
          exact .back (hdone d List.mem_cons_self) up.reverse segs
        exact (ih (fun t ht => hdone t (List.mem_cons_of_mem d ht)) h).head hback
    · -- a step down turns nothing into something shorter: the segment joins those walked along
      rw [climb_down hs] at h
      have hrest := ih (List.forall_mem_cons.mpr ⟨hs, hdone⟩) h
      rwa [List.reverse_cons, List.append_assoc] at hrest

/-- **A walk ends in the ordinary segments to which the ones it comes along can be simplified.** -/
theorem climb_eq_some_iff {segs out : List (List Char)} :
    climb [] segs = some out ↔
      (∀ s ∈ out, Ordinary s) ∧ Relation.ReflTransGen Shortens segs out.reverse := by
  constructor
  · intro h
    exact ⟨climb_ordinary (List.forall_mem_nil _) h, shortens_of_climb (List.forall_mem_nil _) h⟩
  · rintro ⟨hout, hshortens⟩
    -- no simplification on the way changes where the walk leads
    have hsame : climb [] segs = climb [] out.reverse := by
      generalize out.reverse = last at hshortens
      induction hshortens with
      | refl => rfl
      | tail _ hstep ih => rw [ih, hstep.climb_eq]
    rw [hsame, climb_of_ordinary fun s hs => hout s (List.mem_reverse.mp hs), List.reverse_reverse,
      List.append_nil]

/-! ## Paths of normal forms -/

section

variable {path : List Char}

theorem nil_mem_segments_of_leading (h : path.head? = some '/') : [] ∈ segments path := by
  obtain ⟨rest, rfl⟩ := List.head?_eq_some_iff.mp h
  exact List.mem_cons_self

theorem nil_mem_segments_of_trailing (h : path.getLast? = some '/') : [] ∈ segments path := by
  obtain ⟨front, rfl⟩ := List.getLast?_eq_some_iff.mp h
  rw [segments_append_slash]
  exact List.mem_append_right _ List.mem_cons_self

theorem nil_mem_segments_of_repeated (h : ['/', '/'] <:+: path) : [] ∈ segments path := by
  obtain ⟨front, rest, rfl⟩ := h
  rw [List.append_assoc, List.cons_append, segments_append_slash]
  exact List.mem_append_right _ List.mem_cons_self

/-- Slashes at the ends of a path and next to each other stand around empty segments. -/
theorem cleanPath_of_ordinary (h : ∀ s ∈ segments path, Ordinary s) : CleanPath path where
  ordinary _ := h
  leading hslash := (h [] (nil_mem_segments_of_leading hslash)).1 rfl
  trailing hslash := (h [] (nil_mem_segments_of_trailing hslash)).1 rfl
  repeated hslash := (h [] (nil_mem_segments_of_repeated hslash)).1 rfl

theorem cleanPath_nil : CleanPath [] := ⟨nofun, nofun, nofun, by decide⟩

end

theorem cleanPath_joinSegments {ss : List (List Char)} (h : ∀ s ∈ ss, Ordinary s ∧ '/' ∉ s) :
    CleanPath (joinSegments ss) := by
  by_cases hne : ss = []
  · subst hne
    exact cleanPath_nil
  · apply cleanPath_of_ordinary
    rw [segments_joinSegments hne fun s hs => (h s hs).2]
    exact fun s hs => (h s hs).1

/-- The normal form of a name is its scheme and what its path can be simplified to. -/
theorem normalForm_of_ok {name normal : List Char} (h : normalizeChars name = .ok normal) :
    ∃ ss, Relation.ReflTransGen Shortens (segments (splitScheme name).2) ss ∧
      (∀ s ∈ ss, Ordinary s) ∧ normal = (splitScheme name).1 ++ joinSegments ss ∧
      splitScheme normal = ((splitScheme name).1, joinSegments ss) ∧
      CleanPath (joinSegments ss) := by
  obtain ⟨-, -, path, hpath, rfl⟩ := normalizeChars_eq_ok_iff.mp h
  obtain ⟨out, hclimb, rfl⟩ := Option.map_eq_some_iff.mp hpath
  have hordinary : ∀ s ∈ out.reverse, Ordinary s ∧ '/' ∉ s := fun s hs =>
    (ordinary_of_climb hclimb s hs).imp_right fun hsegment => (mem_segments hsegment).1
  exact ⟨out.reverse, (climb_eq_some_iff.mp hclimb).2, fun s hs => (hordinary s hs).1, rfl,
    splitScheme_append name (splitAtMark_joinSegments hordinary), cleanPath_joinSegments hordinary⟩

/-! ## Paths behind each other -/

/-- A name without a colon has no scheme. -/
theorem splitScheme_of_no_colon {name : List Char} (h : ':' ∉ name) :
    splitScheme name = ([], name) := by
  apply splitScheme_of_none
  cases hsplit : splitAtMark name with
  | none => rfl
  | some r =>
    rw [splitAtMark_eq_some hsplit] at h
    exact absurd (List.mem_append_right _ List.mem_cons_self) h

/-- Behind a path without defects, the walk along another one goes on from where the first led. -/
theorem normalizeChars_behind {front path : List Char} {reached : List (List Char)}
    (hfront : ':' ∉ front) (hpath : ':' ∉ path) (hbackslash : '\\' ∉ front) (hnul : '\x00' ∉ front)
    (hclimb : climb [] (segments front) = some reached) :
    normalizeChars (front ++ '/' :: path) =
      if '\\' ∈ path then .error .backslash
      else if '\x00' ∈ path then .error .nul
      else
        match climb reached (segments path) with
        | some out => .ok (joinSegments out.reverse)
        | none => .error .aboveRoot := by
  have hmem : ∀ c : Char, c ≠ '/' → c ∉ front → (c ∈ front ++ '/' :: path ↔ c ∈ path) := by
    intro c hslash hc
    simp [hslash, hc]
  have hcolon : ':' ∉ front ++ '/' :: path := by
    rw [hmem ':' (by decide) hfront]
    exact hpath
  simp only [normalizeChars, hmem '\\' (by decide) hbackslash, hmem '\x00' (by decide) hnul,
    splitScheme_of_no_colon hcolon, normalizePath?, segments_append_slash, climb_append, hclimb,
    Option.bind_some]
  cases climb reached (segments path) <;> rfl

/-- **A path in front of another one may as well be in normal form.** -/
theorem normalizeChars_append {front path normal : List Char} (hfront : ':' ∉ front)
    (hpath : ':' ∉ path) (h : normalizeChars front = .ok normal) :
    normalizeChars (front ++ '/' :: path) = normalizeChars (normal ++ '/' :: path) := by
  obtain ⟨hbackslash, hnul, p, hp, hnormal⟩ := normalizeChars_eq_ok_iff.mp h
  have hcolon' := not_mem_normal h (by decide) hfront
  have hbackslash' := not_mem_normal h (by decide) hbackslash
  have hnul' := not_mem_normal h (by decide) hnul
  rw [splitScheme_of_no_colon hfront] at hp hnormal
  obtain ⟨reached, hclimb, rfl⟩ := Option.map_eq_some_iff.mp hp
  have hordinary : ∀ s ∈ reached.reverse, Ordinary s ∧ '/' ∉ s := fun s hs =>
    (ordinary_of_climb hclimb s hs).imp_right fun hsegment => (mem_segments hsegment).1
  -- both walks have come to the same directory where the second path begins
  have hclimb' : climb [] (segments normal) = some reached := by
    rw [hnormal, List.nil_append, climb_segments_joinSegments hordinary, List.reverse_reverse]
  rw [normalizeChars_behind hfront hpath hbackslash hnul hclimb,
    normalizeChars_behind hcolon' hpath hbackslash' hnul' hclimb']

/-! ## Names -/

/-- A name without a normal form is reported with its defect. -/
theorem normalize_eq_error_iff {name : String} :
    (∃ x, normalize name = .error x) ↔ ∃ defect, normalizeChars name.toList = .error defect := by
  unfold normalize
  cases normalizeChars name.toList with
  | ok cs => exact iff_of_false nofun nofun
  | error d => exact iff_of_true ⟨_, rfl⟩ ⟨_, rfl⟩

theorem normalize_mapError (name : String) :
    (normalize name).mapError Prod.snd = (normalizeChars name.toList).map String.ofList := by
  unfold normalize
  cases normalizeChars name.toList <;> rfl

/-- **Which names have a normal form, and what it is like.** A name has none exactly if it contains
a backslash or the character NUL, or some of the first segments behind its scheme go up more often
than down. Otherwise its normal form is the unchanged scheme, followed by the ordinary segments to
which the others can be simplified; no slash stands at an end of that path or next to another slash.
The normal form is its own normal form, and a template that is asked for by it is sought under just
that name. In front of a further path, neither with a colon, a name may as well be in normal form:
the normal form of the whole is the same, or it has the same defect. -/
theorem normalizes_within_root (name : String) :
    ((∃ x, normalize name = .error x) ↔
      '\\' ∈ name.toList ∨ '\x00' ∈ name.toList ∨
        Oversteps (segments (splitScheme name.toList).2)) ∧
      (∀ normal, normalize name = .ok normal →
        (∃ ss, Relation.ReflTransGen Shortens (segments (splitScheme name.toList).2) ss ∧
          (∀ s ∈ ss, Ordinary s) ∧
          normal.toList = (splitScheme name.toList).1 ++ joinSegments ss ∧
          splitScheme normal.toList = ((splitScheme name.toList).1, joinSegments ss) ∧
          CleanPath (joinSegments ss)) ∧
        normalize normal = .ok normal ∧
        ∀ defaultEncoding encoding parse, ∃ r,
          Request.ofName defaultEncoding normal encoding parse = .ok r ∧ r.name = normal ∧
            r.parse = parse) ∧
      ∀ path normal, ':' ∉ name.toList → ':' ∉ path.toList → normalize name = .ok normal →
        (normalize (name ++ "/" ++ path)).mapError Prod.snd =
          (normalize (normal ++ "/" ++ path)).mapError Prod.snd := by
  refine ⟨normalize_eq_error_iff.trans normalizeChars_eq_error_iff, fun normal h => ?_,
    fun path normal hname hpath h => ?_⟩
  · have hnormal := normalize_normal h
    exact ⟨normalForm_of_ok (normalize_eq_ok_iff.mp h), hnormal, Request.ofName_of_normal hnormal⟩
  · have happend := normalizeChars_append hname hpath (normalize_eq_ok_iff.mp h)
    have hslash : ∀ front : String,
        (front ++ "/" ++ path).toList = front.toList ++ '/' :: path.toList := by
      intro front
      simp [String.toList_append]
    rw [normalize_mapError, normalize_mapError, hslash, hslash, happend]

/-- A name that goes back within the root, and one that leaves it before it comes back. -/
example : normalize "s3://a/./b//../c/" = .ok "s3://a/c" ∧
    normalize "a/../../b/c/d" = .error ("a/../../b/c/d", .aboveRoot) :=
  ⟨rfl, rfl⟩

end Name

end Stencil

import Mathlib.Data.List.Nodup
import Mathlib.Data.List.Perm.Basic
import Mathlib.Data.Set.List
import Stencil.Proofs.Template.Printing
import Stencil.Proofs.Template.Refusal

/-!
# Attributes of inclusions in any order

The attributes of an inclusion have no mark between them: the expression of each goes on as far as an
expression can, and behind it the name of the next one stands. So what a tag means does not depend on
the order of its attributes, nor on the blanks between them, but only on which expression each of them
has. A name that comes twice, or that is not the name of an attribute, is an issue of the tag.

## Main definitions

* `Assignment` is which expressions the attributes have, `Assigns` says that a tag writes them, in some
  order.
* `Improper` names are not those of attributes, or come twice.
* `Piece.Includes` is the tag of an inclusion with its target and the attributes that it writes.

## Main results

* `Piece.Includes.part_of_assigns`: the element that a tag is depends on its assignment only.
* `Piece.Includes.part_of_improper`: improper names are an issue that names one of them.
* `inclusion_attributes_unordered`: the two for whole sources.
-/

namespace Stencil

/-! ## Assignments -/

/-- Which expressions the attributes have; none for those that are not written. -/
abbrev Assignment := IncludeAttribute → Option Expr

/-- The expressions of the attributes of an inclusion. -/
def Inclusion.expressions (i : Inclusion) : Assignment
  | .encoding => i.encoding.expression
  | .parse => i.parse.expression
  | .ignoreMissing => i.ignoreMissing.expression

/-- The attributes of an assignment that are written. -/
def entries (assigned : Assignment) : List (IncludeAttribute × Expr) :=
  IncludeAttribute.all.filterMap fun a => (assigned a).map (a, ·)

/-- What a tag writes are the attributes of the assignment, in some order. -/
def Assigns (written : List (String × Expr)) (assigned : Assignment) : Prop :=
  written.Perm ((entries assigned).map IncludeAttribute.named)

/-- The inclusion of a target with these attributes, unless one of them cannot be folded. -/
def Inclusion.ofAssignment (target : Expr) (assigned : Assignment) : TagResult Inclusion :=
  (fold target (assigned .encoding) (assigned .parse) (assigned .ignoreMissing)).mapError
    ofFoldError

section

variable {assigned : Assignment} {written : List (String × Expr)} {target : Expr}

theorem mem_entries {a : IncludeAttribute} {e : Expr} :
    (a, e) ∈ entries assigned ↔ assigned a = some e := by
  cases a <;> simp [entries, IncludeAttribute.all]

theorem nodup_entries (assigned : Assignment) : ((entries assigned).map Prod.fst).Nodup := by
  rw [entries, IncludeAttribute.all]
  cases h : assigned .encoding <;> cases h' : assigned .parse <;>
    cases h'' : assigned .ignoreMissing <;> simp [h, h', h'']

/-- Where no key comes twice, a value is found exactly if it is there. -/
theorem lookup_eq_some_iff_mem {as : List (IncludeAttribute × Expr)} {a : IncludeAttribute}
    {e : Expr} (h : (as.map Prod.fst).Nodup) : as.lookup a = some e ↔ (a, e) ∈ as := by
  induction as with
  | nil => simp
  | cons b as ih =>
    obtain ⟨b, f⟩ := b
    obtain ⟨hnew, has⟩ := List.nodup_cons.mp h
    rw [List.lookup_cons, List.mem_cons, Prod.mk.injEq]
    by_cases hb : a = b
    · subst hb
      have hnot : (a, e) ∉ as := fun hmem => hnew (List.mem_map.mpr ⟨(a, e), hmem, rfl⟩)
      simp [hnot, eq_comm]
    · rw [beq_false_of_ne hb, ih has]
      simp [hb]

theorem name_injective : Function.Injective IncludeAttribute.name := by
  intro a b h
  apply Option.some.inj
  rw [← a.ofName?_name, ← b.ofName?_name, h]

theorem named_injective : Function.Injective IncludeAttribute.named := by
  rintro ⟨a, e⟩ ⟨b, f⟩ h
  obtain ⟨hname, rfl⟩ := Prod.mk.inj h
  have hab : a = b := name_injective hname
  rw [hab]

/-- **An assignment is listed by attributes of its own**, among which each has its expression,
whatever the order. -/
theorem Assigns.exists_attributes (h : Assigns written assigned) :
    ∃ as : List (IncludeAttribute × Expr), written = as.map IncludeAttribute.named ∧
      (as.map Prod.fst).Nodup ∧ ∀ a, as.lookup a = assigned a := by
  have hrange : written ∈ Set.range (List.map IncludeAttribute.named) := by
    rw [Set.range_list_map]
    intro x hx
    obtain ⟨a, -, rfl⟩ := List.mem_map.mp (h.mem_iff.mp hx)
    exact ⟨a, rfl⟩
  obtain ⟨as, rfl⟩ := hrange
  have hperm : as.Perm (entries assigned) := (List.map_perm_map_iff named_injective).mp h
  have hnodup : (as.map Prod.fst).Nodup :=
    (hperm.map Prod.fst).nodup_iff.mpr (nodup_entries assigned)
  refine ⟨as, rfl, hnodup, fun a => Option.ext fun e => ?_⟩
  rw [lookup_eq_some_iff_mem hnodup, hperm.mem_iff, mem_entries]

/-- An inclusion has the target and the expressions that it is made from. -/
theorem Inclusion.expressions_ofAssignment {i : Inclusion} (h : ofAssignment target assigned = .ok i) :
    i.target = target ∧ i.expressions = assigned := by
  cases hfold : fold target (assigned .encoding) (assigned .parse) (assigned .ignoreMissing) with
  | error e => rw [ofAssignment, hfold] at h; cases h
  | ok j =>
    rw [ofAssignment, hfold] at h
    cases h
    obtain ⟨htarget, hencoding, hparse, hignoreMissing⟩ := expressions_of_fold hfold
    refine ⟨htarget, funext fun a => ?_⟩
    cases a <;> assumption

end

/-! ## Names that are refused -/

/-- A name comes twice, or is not the name of an attribute. -/
def Improper (names : List String) : Prop :=
  ¬names.Nodup ∨ ∃ n ∈ names, n ∉ IncludeAttribute.all.map IncludeAttribute.name

/-- The issue is that of a name among the attributes. -/
inductive ParseIssue.Blames : ParseIssue → String → Prop
  /-- It is no name but a keyword. -/
  | keyword (n : String) : Blames (.includeToken n) n
  | unsupported (n : String) : Blames (.unsupportedParameter n) n
  | duplicate (n : String) : Blames (.duplicateParameter n) n

theorem IncludeAttribute.name_of_ofName? {n : String} {a : IncludeAttribute}
    (h : ofName? n = some a) : a.name = n := by
  simpa using List.find?_some h

/-- Names of attributes, none of which comes twice, are not improper. -/
theorem not_improper {as : List (IncludeAttribute × Expr)} (h : (as.map Prod.fst).Nodup) :
    ¬Improper ((as.map IncludeAttribute.named).map Prod.fst) := by
  have hnames : (as.map IncludeAttribute.named).map Prod.fst =
      (as.map Prod.fst).map IncludeAttribute.name := by
    simp [IncludeAttribute.named]
  rw [hnames]
  rintro (hnodup | ⟨n, hn, hnot⟩)
  · exact hnodup (h.map name_injective)
  · obtain ⟨a, -, rfl⟩ := List.mem_map.mp hn
    exact hnot (List.mem_map_of_mem (by cases a <;> decide))

/-- **Attributes are read up to the first name that is refused**: unless the names are those of
attributes, none of them given already, reading them ends in the issue of one of them. -/
theorem Listed.rejected {ts all : List Token} {stop : Nat} {written : List (String × Expr)}
    (h : Listed ts written) {given : List (IncludeAttribute × Expr)}
    (hgiven : (given.map Prod.fst).Nodup)
    (hwritten : ∀ as, written = as.map IncludeAttribute.named →
      ¬((given ++ as).map Prod.fst).Nodup) :
    ∃ n ∈ written.map Prod.fst, ∃ issue : ParseIssue, issue.Blames n ∧
      readAttributes all given (ts ++ [Token.endAt stop]) = .error (.inl issue) := by
  induction h generalizing given with
  | nil => exact absurd (by rwa [List.append_nil]) (hwritten [] rfl)
  | @cons name sign vs ts e written hkind hsign hvalue hnext ih =>
    have hend : name.kind ≠ .eof := by
      rw [hkind]
      split <;> simp
    have hmem : name.text ∈ ((name.text, e) :: written).map Prod.fst := List.mem_cons_self
    rw [List.cons_append, List.cons_append, readAttributes, if_neg hend]
    simp only [hsign, Bool.and_true]
    split
    · split
      · exact ⟨_, hmem, _, .unsupported _, rfl⟩
      · next a ha =>
        split
        · exact ⟨_, hmem, _, .duplicate _, rfl⟩
        · next hnew =>
          have hread : readTagExpr all (vs ++ (ts ++ [Token.endAt stop])) = .ok ⟨(e, _), _⟩ :=
            readTagExpr_of_read (read_of_derives hvalue hnext.head_binaryOp?)
          have hlookup : given.lookup a = none := Option.not_isSome_iff_eq_none.mp hnew
          have hnodup : ((given ++ [(a, e)]).map Prod.fst).Nodup := by
            rw [List.map_append, List.map_singleton, List.nodup_append]
            refine ⟨hgiven, List.nodup_singleton a, ?_⟩
            intro b hb c hc
            cases List.mem_singleton.mp hc
            obtain ⟨d, hd, rfl⟩ := List.mem_map.mp hb
            exact (bne_iff_ne.mp (List.lookup_eq_none_iff.mp hlookup d hd)).symm
          -- the names behind it are as before, with this one among those that are given
          have hbehind : ∀ as, written = as.map IncludeAttribute.named →
              ¬((given ++ [(a, e)] ++ as).map Prod.fst).Nodup := by
            rintro as rfl
            rw [List.append_assoc]
            refine hwritten ((a, e) :: as) ?_
            rw [List.map_cons, IncludeAttribute.named, IncludeAttribute.name_of_ofName? ha]
          obtain ⟨n, hn, issue, hblames, hissue⟩ := ih hnodup hbehind
          refine ⟨n, List.mem_cons_of_mem _ hn, issue, hblames, ?_⟩
          rw [List.append_assoc, hread]
          exact hissue
    · exact ⟨_, hmem, _, .keyword _, rfl⟩

/-! ## The tags of inclusions -/

/-- The piece is the tag of an inclusion with this target, and writes these attributes. -/
def Piece.Includes (p : Piece) (target : Expr) (written : List (String × Expr)) : Prop :=
  ∃ us vs stop selfClosing,
    p.kind = .directive "include" (us ++ vs ++ [Token.endAt stop]) selfClosing ∧
      Derives .disjunction us target ∧ Listed vs written

namespace Piece.Includes

variable {p : Piece} {target : Expr} {written : List (String × Expr)}

/-- **The element that a tag is depends only on the expressions of its attributes**, not on their
order. -/
theorem part_of_assigns (h : p.Includes target written) {assigned : Assignment}
    (hassigned : Assigns written assigned) :
    p.part = .leaf ((Inclusion.ofAssignment target assigned).map (.inclusion p.place)) := by
  obtain ⟨kind, place⟩ := p
  obtain ⟨us, vs, stop, selfClosing, rfl, hder, hlisted⟩ := h
  obtain ⟨as, hnamed, hnodup, hlookup⟩ := hassigned.exists_attributes
  have hattributes : Attributes [] vs as := hlisted.attributes hnamed hnodup
  change Part.leaf ((inclusionOf (us ++ vs ++ [Token.endAt stop])).map _) = _
  rw [inclusionOf_of_derives hder hattributes]
  simp only [hlookup]
  rfl

/-- **Improper names are an issue of the tag**, which names one of them. -/
theorem part_of_improper (h : p.Includes target written)
    (himproper : Improper (written.map Prod.fst)) :
    ∃ n ∈ written.map Prod.fst, ∃ issue : ParseIssue, issue.Blames n ∧
      p.part = .leaf (.error (.inl issue)) := by
  obtain ⟨kind, place⟩ := p
  obtain ⟨us, vs, stop, selfClosing, rfl, hder, hlisted⟩ := h
  have hrejected : ∃ n ∈ written.map Prod.fst, ∃ issue : ParseIssue, issue.Blames n ∧
      readAttributes (us ++ (vs ++ [Token.endAt stop])) [] (vs ++ [Token.endAt stop]) =
        .error (.inl issue) := by
    refine hlisted.rejected List.nodup_nil ?_
    rintro as rfl hnodup
    exact not_improper hnodup himproper
  obtain ⟨n, hn, issue, hblames, hissue⟩ := hrejected
  refine ⟨n, hn, issue, hblames, ?_⟩
  change Part.leaf ((inclusionOf (us ++ vs ++ [Token.endAt stop])).map _) = _
  rw [List.append_assoc, inclusionOf_of_target hder hlisted.head_binaryOp?, hissue]
  rfl

end Piece.Includes

/-! ## Whole sources -/

/-- How parsing ends where the tag is all there is. -/
def TagResult.alone (r : TagResult Element) (name : String) : Except Failure (List Element) :=
  match r with
  | .ok e => .ok [e]
  | .error (.inl issue) => .error (.parse ⟨issue, ⟨1, 1⟩, name⟩)
  | .error (.inr failure) => .error failure

/-- A source that is cut off as one piece has that piece alone. -/
theorem piecesOf_alone {s : List Char} {kind : PieceKind} (hne : s ≠ [])
    (hcut : cut Cursor.start.offset s = .ok (some kind, s.length)) :
    piecesOf (String.ofList s) =
      .ok ([⟨kind, Cursor.start.place⟩], Cursor.start.across s) := by
  have hsliced : Sliced .start s [⟨s, .start, some kind⟩] := by
    have hfirst : cut Cursor.start.offset (s ++ []) = .ok (some kind, s.length) := by
      rwa [List.append_nil]
    simpa using Sliced.cons hne hfirst (.nil _)
  rw [piecesOf, String.toList_ofList, pieces_of_sliced hsliced]
  rfl

/-- A source that is cut off as one piece is parsed to the element that the piece is. -/
theorem parseTemplate_alone {s : List Char} {kind : PieceKind} {r : TagResult Element} (hne : s ≠ [])
    (hcut : cut Cursor.start.offset s = .ok (some kind, s.length))
    (hp : (⟨kind, Cursor.start.place⟩ : Piece).part = .leaf r) (name : String) :
    parseTemplate (String.ofList s) name = r.alone name := by
  rw [parseTemplate, piecesOf_alone hne hcut]
  simp only [build, hp]
  rcases r with (issue | failure) | e <;> rfl

/-- **A tag with an issue is rejected** at its place, if parsing does not end at a piece in front of
it. -/
theorem parseTemplate_rejected {source : String} {before after : List Piece} {p : Piece}
    {stop : Cursor} {issue : ParseIssue} (hps : piecesOf source = .ok (before ++ p :: after, stop))
    (hp : p.part = .leaf (.error (.inl issue))) (name : String) :
    parseTemplate source name = .error (.parse ⟨issue, p.place, name⟩) ∨
      ∃ q ∈ before,
        (∃ issue, parseTemplate source name = .error (.parse ⟨issue, q.place, name⟩)) ∨
        ∃ x, q.Unfoldable x ∧ parseTemplate source name = .error x := by
  rw [parseTemplate, hps]
  simp only
  rcases build_rejected hp before after [] [] with h | ⟨q, hq, ⟨issue, h⟩ | ⟨x, hx, h⟩⟩
  · exact .inl (by rw [h])
  · exact .inr ⟨q, hq, .inl ⟨issue, by rw [h]⟩⟩
  · exact .inr ⟨q, hq, .inr ⟨x, hx, by rw [h]⟩⟩

/-- What the attributes of a tag assign, in the order of the tag. -/
def WrittenInclusion.pairs (t : WrittenInclusion) : List (String × Expr) :=
  t.attributes.map WrittenAttribute.pair

/-- The tag of an inclusion is one, wherever it is a slice of a source. -/
theorem WrittenInclusion.WellFormed.includes {t : WrittenInclusion} (h : t.WellFormed) {k : Cursor}
    {s : List Char} {slices : List Slice} (hs : Sliced k s slices) :
    ∀ x ∈ slices, x.source = t.text → ∃ p, x.piece? = some p ∧ p.Includes t.target t.pairs := by
  induction hs with
  | nil => exact List.forall_mem_nil _
  | @cons k source rest content slices hne hcut _ ih =>
    rintro x hx hsource
    rcases List.mem_cons.mp hx with rfl | hx
    · obtain rfl : source = t.text := hsource
      obtain ⟨us, vs, stop, hder, hlisted, hcut'⟩ := cut_inclusion h rest
      rw [hcut] at hcut'
      obtain ⟨rfl, -⟩ := Prod.mk.inj (Except.ok.inj hcut')
      exact ⟨_, rfl, us, vs, stop, t.selfClosing, rfl, hder, hlisted⟩
    · exact ih x hx hsource

/-- The tag of an inclusion, as a source of its own. -/
theorem WrittenInclusion.WellFormed.exists_alone {t : WrittenInclusion} (h : t.WellFormed) :
    ∃ p : Piece, p.place = ⟨1, 1⟩ ∧ p.Includes t.target t.pairs ∧
      ∀ r name, p.part = .leaf r → parseTemplate (String.ofList t.text) name = r.alone name := by
  obtain ⟨us, vs, stop, hder, hlisted, hcut⟩ := cut_inclusion h []
  rw [List.append_nil] at hcut
  exact ⟨_, rfl, ⟨us, vs, stop, t.selfClosing, rfl, hder, hlisted⟩,
    fun r name hp => parseTemplate_alone (List.cons_ne_nil _ _) hcut hp name⟩

/-- **The attributes of an inclusion are read one by one, and their order does not matter.** Take the tag
of a target and of attributes in canonical form, with any blanks between them.

If it writes an assignment, in whatever order, then parsing it gives the inclusion with that target
and these expressions, or the failure to fold them: the outcome is made from the assignment alone. The
same holds of the tag wherever it stands in a source, and of every other form in which the tag of an
inclusion may write the assignment.

If a name among the attributes comes twice or is not the name of one, then the tag is rejected, and so
is every source that has a tag with such names: with an issue at that tag which names one of them, if
parsing has not ended at a piece in front of it. -/
theorem inclusion_attributes_unordered (t : WrittenInclusion) (h : t.WellFormed) (name : String) :
    (∀ assigned, Assigns t.pairs assigned →
      parseTemplate (String.ofList t.text) name = TagResult.alone
        ((Inclusion.ofAssignment t.target assigned).map (.inclusion ⟨1, 1⟩)) name ∧
      ∀ i, Inclusion.ofAssignment t.target assigned = .ok i →
        i.target = t.target ∧ i.expressions = assigned) ∧
    (Improper (t.pairs.map Prod.fst) → ∃ n ∈ t.pairs.map Prod.fst, ∃ issue : ParseIssue,
      issue.Blames n ∧ parseTemplate (String.ofList t.text) name =
        .error (.parse ⟨issue, ⟨1, 1⟩, name⟩)) ∧
    (∀ k s slices, Sliced k s slices → ∀ x ∈ slices, x.source = t.text →
      ∃ p, x.piece? = some p ∧ p.Includes t.target t.pairs) ∧
    (∀ (p : Piece) target written assigned, p.Includes target written → Assigns written assigned →
      p.part = .leaf ((Inclusion.ofAssignment target assigned).map (.inclusion p.place))) ∧
    ∀ source before (p : Piece) after stop target written,
      piecesOf source = .ok (before ++ p :: after, stop) → p.Includes target written →
      Improper (written.map Prod.fst) →
      (∃ n ∈ written.map Prod.fst, ∃ issue : ParseIssue, issue.Blames n ∧
        parseTemplate source name = .error (.parse ⟨issue, p.place, name⟩)) ∨
      ∃ q ∈ before,
        (∃ issue, parseTemplate source name = .error (.parse ⟨issue, q.place, name⟩)) ∨
        ∃ x, q.Unfoldable x ∧ parseTemplate source name = .error x := by
  obtain ⟨p, hplace, hincludes, halone⟩ := h.exists_alone
  refine ⟨?assigned, ?improper, fun k s slices hs => h.includes hs,
    fun p target written assigned hp hassigned => hp.part_of_assigns hassigned, ?rejected⟩
  case assigned =>
    intro assigned hassigned
    refine ⟨?_, fun i hi => Inclusion.expressions_ofAssignment hi⟩
    rw [halone _ name (hincludes.part_of_assigns hassigned), hplace]
  case improper =>
    intro himproper
    obtain ⟨n, hn, issue, hblames, hp⟩ := hincludes.part_of_improper himproper
    exact ⟨n, hn, issue, hblames, halone _ name hp⟩
  case rejected =>
    intro source before p after stop target written hps hincludes himproper
    obtain ⟨n, hn, issue, hblames, hp⟩ := hincludes.part_of_improper himproper
    exact (parseTemplate_rejected hps hp name).imp (fun hissue => ⟨n, hn, issue, hblames, hissue⟩) id

/-- A tag with two attributes, the value of the second of which is a variable with the name of the
first: `<#include "a" parse=false`, a tab, and `encoding=parse />`. -/
def crossedTag : WrittenInclusion :=
  ⟨[' '], .str "a",
    [⟨[' '], "parse", .bool false⟩, ⟨['\t'], "encoding", .var "parse"⟩], [' '], true⟩

/-- The same tag with the first attribute once more. -/
def repeatedTag : WrittenInclusion :=
  { crossedTag with attributes := crossedTag.attributes ++ [⟨[' '], "parse", .bool true⟩] }

/-- The first of these tags is read as its inclusion, and the second one is rejected. -/
theorem crossedTag_unordered :
    (crossedTag.WellFormed ∧ parseTemplate (String.ofList crossedTag.text) "main" =
      .ok [.inclusion ⟨1, 1⟩ ⟨.str "a", .deferred (.var "parse"), .folded false (.bool false),
        .default false⟩]) ∧
    repeatedTag.WellFormed ∧ ∃ n ∈ ["parse", "encoding", "parse"], ∃ issue : ParseIssue,
      issue.Blames n ∧ parseTemplate (String.ofList repeatedTag.text) "main" =
        .error (.parse ⟨issue, ⟨1, 1⟩, "main"⟩) := by
  have htab : ∀ c ∈ ['\t'], isBlank c = true := List.forall_mem_singleton.mpr (by decide)
  have hwords : IsWord "parse".toList ∧ IsWord "encoding".toList := by decide
  have hname : IsName "parse".toList := by decide
  have hgap : ∀ {c : Char}, [c] ≠ [] := List.cons_ne_nil _ _
  have hparse : ∀ b, WrittenAttribute.WellFormed ⟨[' '], "parse", .bool b⟩ :=
    fun _ => ⟨hgap, isBlank_space, hwords.1, trivial⟩
  have hencoding : WrittenAttribute.WellFormed ⟨['\t'], "encoding", .var "parse"⟩ :=
    ⟨hgap, htab, hwords.2, hname⟩
  have hcrossed : crossedTag.WellFormed := by
    refine ⟨⟨hgap, isBlank_space⟩, trivial, ?_, isBlank_space⟩
    exact List.forall_mem_cons.mpr ⟨hparse false, List.forall_mem_singleton.mpr hencoding⟩
  have hrepeated : repeatedTag.WellFormed := by
    refine ⟨hcrossed.1, hcrossed.2.1, ?_, hcrossed.2.2.2⟩
    exact List.forall_mem_append.mpr ⟨hcrossed.2.2.1, List.forall_mem_singleton.mpr (hparse true)⟩
  let assigned : Assignment := fun a =>
    match a with
    | .encoding => some (.var "parse")
    | .parse => some (.bool false)
    | .ignoreMissing => none
  have hassigned : Assigns crossedTag.pairs assigned := List.Perm.swap _ _ []
  have hparsed := ((inclusion_attributes_unordered crossedTag hcrossed "main").1 assigned hassigned).1
  have htwice : Improper (repeatedTag.pairs.map Prod.fst) := .inl (by decide)
  exact ⟨⟨hcrossed, hparsed⟩, hrepeated,
    (inclusion_attributes_unordered repeatedTag hrepeated "main").2.1 htwice⟩

end Stencil

import Stencil.Proofs.Template.Agreement
import Stencil.Proofs.Template.Printing
import Stencil.Template

/-!
# The canonical form of a template denotes it

The canonical form of well-formed elements, no two texts of which are neighbours, is a source for
them. Since sources without comments have only such elements, their templates are read back from
their canonical forms.

## Main results

* `parseTemplate_canonicalAll`: well-formed, separated elements are read from their canonical form.
* `Template.ofText_canonical`: a template whose source has no comments is read back.
-/

namespace Stencil

/-- **Well-formed, separated elements are read from their canonical form**, which has no
comments. -/
theorem parseTemplate_canonicalAll {es : List Element} (he : Element.AllWellFormed es)
    (hs : Element.AllSeparated es) (name : String) :
    ∃ root, parseTemplate (Element.canonicalAll es) name = .ok root ∧
      Element.agreesAll root es = true ∧ CommentFree (Element.canonicalAll es) := by
  obtain ⟨ps, root, hcuts, hforms, hagrees⟩ :=
    Element.cuts_canonicalAll es he hs .start [] (Or.inl rfl)
  obtain ⟨slices, hsliced, rfl, hcontent⟩ := hcuts.sliced
  refine ⟨root, parseTemplate_eq_ok_iff.mpr ⟨slices, hsliced, hforms⟩, hagrees, ?_⟩
  intro slices' hsliced'
  rwa [← hsliced.unique hsliced']

namespace Template

theorem root_of_ofText {source name sourceName : String} {encoding : Option String} {t : Template}
    (h : ofText source name sourceName encoding = .ok t) :
    parseTemplate source name = .ok t.root := by
  obtain ⟨root, hroot, hresult⟩ := bind_eq_ok.mp h
  cases hresult
  exact hroot

/-- **A template whose source has no comments is read back from its canonical form**, under any
name: what is read agrees with it. So the canonical form of what is read is that canonical form
again, and it has no comments either. -/
theorem ofText_canonical {source name sourceName : String} {encoding : Option String}
    {t : Template} (h : ofText source name sourceName encoding = .ok t)
    (hcomments : CommentFree source) (name' sourceName' : String) (encoding' : Option String) :
    ∃ t', ofText t.canonical name' sourceName' encoding' = .ok t' ∧
      Element.agreesAll t'.root t.root = true ∧ t'.canonical = t.canonical ∧
      CommentFree t.canonical := by
  have hroot := root_of_ofText h
  obtain ⟨root, hparse, hagrees, hcomments'⟩ := parseTemplate_canonicalAll
    (wellFormed_of_parseTemplate hroot) (separated_of_parseTemplate hroot hcomments) name'
  refine ⟨_, bind_eq_ok.mpr ⟨root, hparse, rfl⟩, hagrees, ?_, hcomments'⟩
  exact Element.canonicalAll_of_agreesAll hagrees

/-- A template with text in front of a tag, a string that holds the ends of tags, an empty second
branch and a folded attribute. -/
theorem ofText_canonical_branches :
    let source := "a$<#if x == \"\x7d>\">$\x7b!x\x7d<#else></#if><#include \"t\" parse=\"yes\"/>"
    CommentFree source ∧ ∃ t t', ofText source "main" "" none = .ok t ∧
      ofText t.canonical "other" "" none = .ok t' ∧ Element.agreesAll t'.root t.root = true := by
  intro source
  let elements : List Element := [.text ⟨1, 1⟩ "a$",
    .conditional ⟨1, 3⟩ (.binary .eq (.var "x") (.str "\x7d>"))
      [.interpolation ⟨1, 20⟩ (.not (.var "x"))] (some []),
    .inclusion ⟨1, 37⟩ ⟨.str "t", .default none, .folded true (.str "yes"), .default false⟩]
  have hx : IsName "x".toList := by decide
  have htext : Unmarked "a$".toList := by decide
  have hcondition : (Expr.binary .eq (.var "x") (.str "\x7d>")).WellFormed :=
    ⟨by decide, by decide, hx, trivial⟩
  have hinclusion : Inclusion.WellFormed
      ⟨.str "t", .default none, .folded true (.str "yes"), .default false⟩ := by
    refine ⟨trivial, ?_, rfl⟩
    intro a ha
    cases List.mem_singleton.mp ha
    trivial
  have hwellFormed : Element.AllWellFormed elements :=
    ⟨⟨by decide, htext⟩, ⟨hcondition, ⟨⟨by decide, hx⟩, trivial⟩, trivial⟩, hinclusion, trivial⟩
  have hseparated : Element.AllSeparated elements :=
    ⟨trivial, by rintro - f hf; cases hf; rfl, ⟨⟨trivial, nofun, trivial⟩, trivial⟩, nofun,
      trivial, nofun, trivial⟩
  obtain ⟨root, hparse, -, hcomments⟩ := parseTemplate_canonicalAll hwellFormed hseparated "main"
  have hread : ofText source "main" "" none = .ok ⟨"main", root, "main", none, true⟩ :=
    bind_eq_ok.mpr ⟨root, hparse, rfl⟩
  obtain ⟨t', ht', hagrees, -⟩ := ofText_canonical hread hcomments "other" "" none
  exact ⟨hcomments, _, t', hread, ht', hagrees⟩

end Template

end Stencil

import Stencil.Engine
import Stencil.Proofs.Render.Alike

/-!
# What a canonical form renders to

The canonical form of a template does not show where a comment stood. It is read as the elements of
the template with neighbouring texts joined exactly where these texts are seamless, and then it
renders as the template does, whatever the engine and the data. Where a marker begins in the text
before a comment and ends in the text behind it, the canonical form has a tag that the source did
not have, or is no template at all.

## Main results

* `Template.seamless_iff_canonical_faithful`: exactly the canonical forms of seamless templates are
  read as the elements they were made from, and these render alike.
-/

namespace Stencil

/-- Templates of one name render alike if their elements agree once neighbouring texts are joined:
the outcome is the same up to its trace, and the engine remembers the same. -/
theorem Engine.run_alike (e : Engine) {t t' : Template} (hname : t'.name = t.name)
    (h : Element.agreesAll t'.root (Element.joinedAll t.root) = true)
    (data : List (String × Value)) :
    (e.run t data).1.mapError Failure.untraced = (e.run t' data).1.mapError Failure.untraced ∧
      (e.run t data).2 = (e.run t' data).2 := by
  have hstates : (RenderState.initial t e.store).Alike (.initial t' e.store) :=
    ⟨hname.symm, rfl, rfl, rfl, rfl, rfl⟩
  have hvisit : (visit ⟨t.name, e.settings, data⟩ t.root).Alike (visit _ t'.root) := alike_visit h
  unfold run process
  rw [hname]
  rcases Run.AlikeUnder.cases hvisit hstates with
    ⟨a, s', t', hm, hn, hstate⟩ | ⟨x, y, s', t', hm, hn, htrace, hstate⟩
  · rw [hm, hn]
    exact ⟨congrArg Except.ok hstate.output, congrArg (Engine.mk e.settings) hstate.store⟩
  · rw [hm, hn]
    exact ⟨congrArg Except.error htrace, congrArg (Engine.mk e.settings) hstate.store⟩

namespace Template

/-- **Exactly the canonical forms of seamless templates are faithful**: read under the name of the
template, they give its elements, with neighbouring texts joined; and what is read renders as the
template does with every engine and all data, up to the traces of errors. What is read from another
canonical form has other elements, and renders alike only where its variables happen to make up for
them. -/
theorem seamless_iff_canonical_faithful {source name sourceName : String}
    {encoding : Option String} {t : Template} (h : ofText source name sourceName encoding = .ok t) :
    Element.Seamless t.root ↔
      ∃ t', ofText t.canonical name "" none = .ok t' ∧
        Element.agreesAll t'.root (Element.joinedAll t.root) = true ∧
        ∀ (e : Engine) (data : List (String × Value)),
          (e.run t data).1.mapError Failure.untraced =
              (e.run t' data).1.mapError Failure.untraced ∧
            (e.run t data).2 = (e.run t' data).2 := by
  have hwellFormed := wellFormed_of_parseTemplate (root_of_ofText h)
  have hname : t.name = name := by
    obtain ⟨root, -, hresult⟩ := bind_eq_ok.mp h
    cases hresult
    rfl
  rw [← parseTemplate_joined_iff hwellFormed name]
  constructor
  · rintro ⟨root, hparse, hagrees⟩
    refine ⟨_, bind_eq_ok.mpr ⟨root, hparse, rfl⟩, hagrees, ?_⟩
    intro e data
    exact e.run_alike hname.symm hagrees data
  · rintro ⟨t', ht', hagrees, -⟩
    exact ⟨t'.root, root_of_ofText ht', hagrees⟩

/-- Two texts around an empty comment are neighbours. -/
theorem ofText_around_comment {s t : String} (hs : s ≠ "") (hs' : Unmarked s.toList) (ht : t ≠ "")
    (ht' : Unmarked t.toList) (name : String) :
    ∃ r p q, ofText (s ++ "<#---->" ++ t) name "" none = .ok r ∧
      r.root = [.text p s, .text q t] := by
  have hsList : s.toList ≠ [] := fun hnil => hs (String.toList_eq_nil_iff.mp hnil)
  have htList : t.toList ≠ [] := fun hnil => ht (String.toList_eq_nil_iff.mp hnil)
  -- the source is cut into three slices; the one in the middle is a comment
  have hcomment : ∀ k rest,
      cut k ("<#---->".toList ++ rest) = .ok (none, "<#---->".toList.length) := fun k rest => rfl
  have hsliced := Sliced.cons (k := .start) hsList (cut_text hsList hs' (Or.inr rfl))
    (.cons (by decide) (hcomment _ _) (.cons htList (cut_text htList ht' (Or.inl rfl)) (.nil _)))
  have hsource : (s ++ "<#---->" ++ t).toList =
      s.toList ++ ("<#---->".toList ++ (t.toList ++ [])) := by
    simp [String.toList_append]
  rw [← hsource, String.ofList_toList, String.ofList_toList] at hsliced
  have hforms := Forms.leaf (p := ⟨.text s, Cursor.start.place⟩) rfl
    (.leaf (p := ⟨.text t, ((Cursor.start.across s.toList).across "<#---->".toList).place⟩)
      rfl .nil)
  exact ⟨_, _, _, bind_eq_ok.mpr ⟨_, parseTemplate_eq_ok_iff.mpr ⟨_, hsliced, hforms⟩, rfl⟩, rfl⟩

/-- A template with a comment between texts that hold no marker together. -/
theorem canonical_faithful_around_comment :
    ∃ t t', ofText "a$<#---->b" "" "" none = .ok t ∧ Element.Seamless t.root ∧
      ofText t.canonical "" "" none = .ok t' ∧
      Element.agreesAll t'.root [.text .unknown "a$b"] = true := by
  obtain ⟨t, p, q, ht, hroot⟩ := ofText_around_comment (s := "a$") (t := "b") (by decide)
    (by decide) (by decide) (by decide) ""
  have hseamless : Element.Seamless t.root := by
    rw [hroot]
    intro u hu
    cases List.mem_singleton.mp hu
    decide
  obtain ⟨t', ht', hagrees, -⟩ := (seamless_iff_canonical_faithful ht).mp hseamless
  refine ⟨t, t', ht, hseamless, ht', ?_⟩
  rw [hroot, Element.agreesAll_iff] at hagrees
  exact (Element.agreesAll_iff _ _).mpr hagrees

/-- A template whose canonical form is none: a dollar sign before a comment and an opening brace
behind it meet, and begin an interpolation that nothing ends. -/
theorem canonical_of_split_marker :
    ∃ t, ofText "$<#---->\x7b" "" "" none = .ok t ∧ t.canonical = "$\x7b" ∧
      ∀ t', ofText t.canonical "" "" none ≠ .ok t' := by
  obtain ⟨t, p, q, ht, hroot⟩ := ofText_around_comment (s := "$") (t := "\x7b") (by decide)
    (by decide) (by decide) (by decide) ""
  have hcanonical : t.canonical = "$\x7b" := by
    rw [Template.canonical, hroot]
    rfl
  refine ⟨t, ht, hcanonical, ?_⟩
  intro t' ht'
  rw [hcanonical] at ht'
  obtain ⟨slices, hsliced, -⟩ := parseTemplate_eq_ok_iff.mp (root_of_ofText ht')
  obtain ⟨source, rest, content, more, -, -, hcut, -⟩ := hsliced.first (by decide)
  obtain ⟨r, hinterpolation, -⟩ := bind_eq_ok.mp hcut
  obtain ⟨tokens, stop, last, hscan, hlast, -⟩ := cutInterpolation_eq_ok hinterpolation
  -- behind the marker nothing is left in which a brace could end the interpolation
  rw [List.drop_eq_nil_of_le (by decide), scan_nil] at hscan
  cases hscan
  cases hlast

end Template

end Stencil

import Stencil.Proofs.Store.Memory
import Stencil.Proofs.Template.Refusal

/-!
# Why a template cannot be loaded

A question to a store that does not remember the answer fails with a loading error for one of five
reasons: there is no source, the source cannot be read, its encoding is not known, its bytes are no
text in the encoding, or its text is no template.

## Main definitions

* `Source.Unloadable` and `Loader.Unloadable` list these reasons.

## Main results

* `Store.ask_load_error_iff`: a question fails with a loading error for one of them, and for no other.
-/

namespace Stencil

/-- Why a source does not give the template of a request. -/
inductive Source.Unloadable (source : Source) (r : Request) : LoadReason → Prop
  | unreadable {detail : String} (hcontent : source.content = .error detail) :
      Unloadable source r (.unreadable detail)
  | unknownEncoding {bytes : List UInt8} (hcontent : source.content = .ok bytes)
      (htext : decodeText r.encoding bytes = .error .unknown) :
      Unloadable source r (.unknownEncoding r.encoding)
  | undecodable {bytes : List UInt8} {e : DecodeError} (hcontent : source.content = .ok bytes)
      (htext : decodeText r.encoding bytes = .error (.undecodable e)) :
      Unloadable source r (.undecodable r.encoding e)
  | unparsable {bytes : List UInt8} {text : String} {e : ParseError}
      (hcontent : source.content = .ok bytes) (htext : decodeText r.encoding bytes = .ok text)
      (hparse : r.parse = true) (htemplate : parseTemplate text r.name = .error (.parse e)) :
      Unloadable source r (.unparsable e)

/-- Why the sources do not give the template of a request. -/
inductive Loader.Unloadable (l : Loader) (r : Request) (ignoreMissing : Bool) : LoadReason → Prop
  | notFound (hsource : l.find r.name = none) (hignore : ignoreMissing = false) :
      Unloadable l r ignoreMissing (.notFound "")
  | source {source : Source} {reason : LoadReason} (hsource : l.find r.name = some source)
      (h : source.Unloadable r reason) : Unloadable l r ignoreMissing reason

/-- A text that is no template gives a loading error that says why. -/
theorem templateOf_load_error_iff {r : Request} {label text : String} {e : LoadError} :
    templateOf r label text = .error (.load e) ↔
      ∃ x, r.parse = true ∧ parseTemplate text r.name = .error (.parse x) ∧
        e = ⟨r.name, .unparsable x⟩ := by
  unfold templateOf
  constructor
  · intro h
    split at h
    · next hparse =>
      split at h
      · next x htext =>
        cases h
        rcases bind_eq_error.mp htext with htemplate | ⟨root, -, hroot⟩
        · exact ⟨x, hparse, htemplate, rfl⟩
        · cases hroot
      · rcases bind_eq_error.mp h with htemplate | ⟨root, -, hroot⟩
        · -- parsing itself has no loading errors
          rcases parseTemplate_error htemplate with ⟨x, hx⟩ | hfolding
          · cases hx
          · cases hfolding
        · cases hroot
    · cases h
  · rintro ⟨x, hparse, htemplate, rfl⟩
    have htext : Template.ofText text r.name label (some r.encoding) = .error (.parse x) :=
      bind_eq_error.mpr (.inl htemplate)
    rw [if_pos hparse, htext]

theorem loadSource_load_error_iff {source : Source} {r : Request} {e : LoadError} :
    loadSource r source = .error (.load e) ↔
      ∃ reason, source.Unloadable r reason ∧ e = ⟨r.name, reason⟩ := by
  unfold loadSource
  constructor
  · intro h
    split at h
    · next detail hcontent =>
      cases h
      exact ⟨_, .unreadable hcontent, rfl⟩
    · next bytes hcontent =>
      split at h
      · cases h
      · next htext =>
        cases h
        exact ⟨_, .unknownEncoding hcontent htext, rfl⟩
      · next x htext =>
        cases h
        exact ⟨_, .undecodable hcontent htext, rfl⟩
      · next text htext =>
        obtain ⟨x, hparse, htemplate, rfl⟩ := templateOf_load_error_iff.mp h
        exact ⟨_, .unparsable hcontent htext hparse htemplate, rfl⟩
  · rintro ⟨reason, hreason, rfl⟩
    cases hreason with
    | unreadable hcontent => rw [hcontent]
    | unknownEncoding hcontent htext => simp only [hcontent, htext]
    | undecodable hcontent htext => simp only [hcontent, htext]
    | unparsable hcontent htext hparse htemplate =>
      simp only [hcontent, htext]
      exact templateOf_load_error_iff.mpr ⟨_, hparse, htemplate, rfl⟩

/-- The sources fail a question with a loading error for one of the reasons. -/
theorem Loader.answer_load_error_iff {l : Loader} {defaultEncoding : String} {q : Query}
    {r : Request} (hrequest : q.request defaultEncoding = .ok r) {e : LoadError} :
    l.answer defaultEncoding q = .error (.load e) ↔
      ∃ reason, l.Unloadable r q.ignoreMissing reason ∧ e = ⟨r.name, reason⟩ := by
  cases hsource : l.find r.name with
  | none =>
    have hload : load l r = .ok none := by rw [load, hsource]
    rw [answer_of_missing hrequest hload]
    constructor
    · intro h
      cases hignore : q.ignoreMissing with
      | true => rw [hignore] at h; cases h
      | false =>
        rw [hignore] at h
        cases h
        exact ⟨_, .notFound hsource rfl, rfl⟩
    · rintro ⟨reason, hreason, rfl⟩
      cases hreason with
      | notFound _ hignore => rw [hignore]; rfl
      | source hfound => rw [hsource] at hfound; cases hfound
  | some source =>
    have hload : load l r = (loadSource r source).map some := by rw [load, hsource]
    have hunloadable : (∃ reason, l.Unloadable r q.ignoreMissing reason ∧ e = ⟨r.name, reason⟩) ↔
        ∃ reason, source.Unloadable r reason ∧ e = ⟨r.name, reason⟩ := by
      constructor
      · rintro ⟨reason, hreason, rfl⟩
        cases hreason with
        | notFound hnone => rw [hsource] at hnone; cases hnone
        | source hfound h =>
          cases hsource.symm.trans hfound
          exact ⟨reason, h, rfl⟩
      · rintro ⟨reason, hreason, rfl⟩
        exact ⟨reason, .source hsource hreason, rfl⟩
    rw [hunloadable, ← loadSource_load_error_iff]
    cases hresult : loadSource r source with
    | ok t =>
      rw [hresult] at hload
      rw [answer_of_load hrequest hload]
      constructor <;>
      · intro h
        cases h
    | error x =>
      rw [hresult] at hload
      rw [answer_of_load_error hrequest hload]
      constructor <;>
      · intro h
        cases h
        rfl

theorem Query.request_ne_load {defaultEncoding : String} {q : Query} (e : LoadError) :
    q.request defaultEncoding ≠ .error (.load e) := by
  unfold request Request.ofName
  split <;> exact nofun

namespace Store

/-- **A question to a store fails with a loading error for one of the five reasons**, when nothing is
remembered for the request that it stands for; the error names the normalized name. -/
theorem ask_load_error_iff {s : Store} {q : Query} {e : LoadError} :
    (s.ask q).1 = .error (.load e) ↔
      ∃ r reason, q.request s.defaultEncoding = .ok r ∧ s.remembered? r = none ∧
        s.loader.Unloadable r q.ignoreMissing reason ∧ e = ⟨r.name, reason⟩ := by
  have hanswered := s.answered q
  generalize s.ask q = a at hanswered
  constructor
  · intro h
    cases hanswered with
    | refused hrequest =>
      cases h
      exact absurd hrequest (Query.request_ne_load e)
    | remembered | loaded => cases h
    | unfound hrequest hnew hload hanswer ha =>
      cases h
      obtain ⟨reason, hreason, rfl⟩ := (Loader.answer_load_error_iff hrequest).mp ha
      exact ⟨_, reason, hrequest, hnew, hreason, rfl⟩
  · rintro ⟨r, reason, hrequest, hnew, hreason, rfl⟩
    have hsources : s.loader.answer s.defaultEncoding q = .error (.load ⟨r.name, reason⟩) :=
      (Loader.answer_load_error_iff hrequest).mpr ⟨reason, hreason, rfl⟩
    -- the other three ways to answer stand for no request, or for one that has a template
    cases hanswered with
    | refused hrefused => cases hrequest.symm.trans hrefused
    | remembered hother ht =>
      cases hrequest.symm.trans hother
      cases hnew.symm.trans ht
    | loaded hother _ hload =>
      rw [Loader.answer_of_load hother hload] at hsources
      cases hsources
    | unfound _ _ _ _ ha => exact ha.symm.trans hsources

end Store

end Stencil

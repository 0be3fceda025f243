import Stencil.Proofs.Expr.Literal
import Stencil.Proofs.Render.Folding
import Stencil.Proofs.Render.Missing
import Stencil.Proofs.Template.AttributeOrder

/-!
# Encodings from literals and from variables

An encoding that is written as a literal expression has to be a string, and a tag with any other value
is refused while it is parsed. One that is read from a variable only has to be usable as text, and so
may be a number. On strings and booleans the two ways agree; with a number the tag is refused, but
the same number in a variable is the encoding that its digits name.

## Main definitions

* `IsInclusionTag` says that a source is the tag of an inclusion, in whatever form it is written.
* `RefusesEncoding` says that a source is refused for its encoding.
* `Inclusion.EncodingFails` says that the encoding of an inclusion is no text where it runs.

## Main results

* `refusesEncoding_iff`: a literal encoding is refused exactly when its value is no string.
* `encodingFails_iff`: one from a variable fails exactly when its value is neither string nor number.
* `encodings_agree_iff_no_number`: the two agree exactly when the value is no number.
-/

namespace Stencil

/-! ## Sources that are one tag -/

/-- The assignment with this encoding. -/
def Assignment.withEncoding (assigned : Assignment) (e : Expr) : Assignment
  | .encoding => some e
  | .parse => assigned .parse
  | .ignoreMissing => assigned .ignoreMissing

/-- The source is the tag of an inclusion with this target, and writes these attributes; there may be
comments around it. -/
def IsInclusionTag (source : String) (target : Expr) (assigned : Assignment) : Prop :=
  ∃ p stop written, piecesOf source = .ok ([p], stop) ∧ p.Includes target written ∧
    Assigns written assigned

/-- The source is refused for its encoding, which is the expression. -/
def RefusesEncoding (source : String) (e : Expr) : Prop :=
  ∃ place, ∀ name, parseTemplate source name =
    .error (.parse ⟨.refusedAttribute .encoding e.canonical, place, name⟩)

/-- The source is read as the inclusion alone. -/
def ReadAsInclusion (source : String) (i : Inclusion) : Prop :=
  ∃ place, ∀ name, parseTemplate source name = .ok [.inclusion place i]

theorem isInclusionTag_of_wellFormed {t : WrittenInclusion} (h : t.WellFormed)
    {assigned : Assignment} (hassigned : Assigns t.pairs assigned) :
    IsInclusionTag (String.ofList t.text) t.target assigned := by
  obtain ⟨us, vs, stop, hder, hlisted, hcut⟩ := cut_inclusion h []
  rw [List.append_nil] at hcut
  exact ⟨_, _, t.pairs, piecesOf_alone (List.cons_ne_nil _ _) hcut,
    ⟨us, vs, stop, t.selfClosing, rfl, hder, hlisted⟩, hassigned⟩

namespace IsInclusionTag

variable {source : String} {target : Expr} {assigned : Assignment}

/-- What becomes of a source that is one tag depends on the attributes that it writes. -/
theorem exists_parse_eq (h : IsInclusionTag source target assigned) :
    ∃ place, ∀ name, parseTemplate source name =
      match Inclusion.ofAssignment target assigned with
      | .ok i => .ok [.inclusion place i]
      | .error (.inl issue) => .error (.parse ⟨issue, place, name⟩)
      | .error (.inr x) => .error x := by
  obtain ⟨p, stop, written, hpieces, hincludes, hassigned⟩ := h
  refine ⟨p.place, fun name => ?_⟩
  have hp := hincludes.part_of_assigns hassigned
  -- the source is one piece, so that its outcome is that of the whole
  rw [parseTemplate, hpieces]
  rcases hfold : Inclusion.ofAssignment target assigned with (issue | x) | i <;>
  · rw [hfold] at hp
    simp only [build, hp, Except.map]
    rfl

theorem readAsInclusion_iff (h : IsInclusionTag source target assigned) {i : Inclusion} :
    ReadAsInclusion source i ↔
      Inclusion.fold target (assigned .encoding) (assigned .parse) (assigned .ignoreMissing) =
        .ok i := by
  obtain ⟨place, hparse⟩ := h.exists_parse_eq
  rw [← mapError_eq_ok (f := ofFoldError)]
  change _ ↔ Inclusion.ofAssignment target assigned = .ok i
  constructor
  · rintro ⟨place', hread⟩
    -- any name will do
    have heq := (hparse "").symm.trans (hread "")
    split at heq
    · next hfold =>
      rw [hfold]
      cases heq
      rfl
    · cases heq
    · cases heq
  · intro hfold
    exact ⟨place, fun name => by rw [hparse, hfold]⟩

end IsInclusionTag

/-! ## Literal encodings -/

namespace Inclusion

variable {target e : Expr} {m : Model}

theorem checkEncoding_of_text {s : String} (h : m.text = some s) :
    checkEncoding e m = .ok (some s) := by
  simp [checkEncoding, h]

theorem checkEncoding_of_no_text (h : m.text = none) :
    checkEncoding e m = .error .encoding := by
  simp [checkEncoding, h]

/-- The encoding is the first attribute to be folded. -/
theorem fold_of_encoding_error {encoding parse ignoreMissing : Option Expr} {x : FoldError}
    (h : Attr.fold none checkEncoding encoding = .error x) :
    fold target encoding parse ignoreMissing = .error x :=
  bind_eq_error.mpr (.inl h)

/-- Behind an encoding that is accepted, no other attribute is refused for it. -/
theorem fold_ne_encoding {encoding parse ignoreMissing : Option Expr} {a : Attr (Option String)}
    (h : Attr.fold none checkEncoding encoding = .ok a) {x : Expr} :
    fold target encoding parse ignoreMissing ≠ .error (.refused .encoding x) := by
  intro hfold
  -- the attributes are folded one after the other, and a value is refused for the one that has it
  rcases bind_eq_error.mp hfold with hx | ⟨_, -, hfold⟩
  · simp [h] at hx
  rcases bind_eq_error.mp hfold with hx | ⟨_, -, hfold⟩
  · obtain ⟨m, hm⟩ := Attr.check_of_refused hx
    cases attribute_of_checkParse hm
  rcases bind_eq_error.mp hfold with hx | ⟨_, -, hfold⟩
  · obtain ⟨m, hm⟩ := Attr.check_of_refused hx
    cases attribute_of_checkIgnoreMissing hm
  · cases hfold

end Inclusion

section

variable {e target : Expr} {m : Model} {assigned : Assignment} {source : String}

/-- A source that is one tag is refused for its encoding if that cannot be folded. -/
theorem IsInclusionTag.refusesEncoding_iff (h : IsInclusionTag source target assigned) :
    RefusesEncoding source e ↔ ∃ x, x.canonical = e.canonical ∧
      Inclusion.fold target (assigned .encoding) (assigned .parse) (assigned .ignoreMissing) =
        .error (.refused .encoding x) := by
  obtain ⟨place, hparse⟩ := h.exists_parse_eq
  constructor
  · rintro ⟨place', hrefused⟩
    have heq := (hparse "").symm.trans (hrefused "")
    rw [Inclusion.ofAssignment] at heq
    split at heq
    · cases heq
    · next issue hfold =>
      cases heq
      -- of the errors of folding, only a refused value has this issue
      obtain ⟨y, hy, hissue⟩ := mapError_eq_error.mp hfold
      cases y with
      | refused fault x =>
        obtain ⟨rfl, hx⟩ := ParseIssue.refusedAttribute.inj (Sum.inl.inj hissue)
        exact ⟨x, hx, hy⟩
      | failed x cause => cases cause <;> cases hissue
    · next x hfold =>
      cases heq
      obtain ⟨y, -, hx⟩ := mapError_eq_error.mp hfold
      cases ofFoldError_failure hx
  · rintro ⟨x, hx, hfold⟩
    refine ⟨place, fun name => ?_⟩
    rw [hparse, Inclusion.ofAssignment, hfold, ← hx]
    rfl

/-- **A literal encoding is refused exactly when its value is no string**, whatever the other
attributes are. -/
theorem refusesEncoding_iff (hliteral : e.isLiteral = true) (hvalue : e.eval none = .ok m)
    (h : IsInclusionTag source target (assigned.withEncoding e)) :
    RefusesEncoding source e ↔ m.text = none := by
  have hattr : Attr.fold none Inclusion.checkEncoding (some e) = _ :=
    Attr.fold_of_isLiteral hliteral hvalue
  rw [h.refusesEncoding_iff, Assignment.withEncoding]
  cases htext : m.text with
  | none =>
    rw [Inclusion.checkEncoding_of_no_text htext] at hattr
    exact iff_of_true ⟨e, rfl, Inclusion.fold_of_encoding_error hattr⟩ rfl
  | some s =>
    rw [Inclusion.checkEncoding_of_text htext] at hattr
    refine iff_of_false ?_ (by simp)
    rintro ⟨x, -, hfold⟩
    exact Inclusion.fold_ne_encoding hattr hfold

end

/-! ## Encodings from variables -/

/-- Where the inclusion runs, its encoding fails: the variable that it is read from has a value of this
type, which is no text. -/
def Inclusion.EncodingFails (job : Job) (i : Inclusion) (s : RenderState) (v actualType : String) :
    Prop :=
  encodingOf job i.encoding s = (.error (.run (.value (.notText v actualType)) none), s)

section

variable {job : Job} {s : RenderState} {v : String} {m : Model} {i : Inclusion}

/-- A variable for the encoding is left to the time of rendering. -/
theorem Inclusion.encoding_of_fold_var {target : Expr} {parse ignoreMissing : Option Expr}
    (h : fold target (some (.var v)) parse ignoreMissing = .ok i) :
    i.encoding = .deferred (.var v) := by
  have hattr := (accepts_of_fold h).1
  simp only [Attr.fold, Expr.isLiteral] at hattr
  exact (Except.ok.inj hattr).symm

theorem encodingOf_var (hv : s.value job v = some m) :
    encodingOf job (.deferred (.var v)) s =
      ((((Expr.var v).textOf m).map some).mapError .ofEval, s) := by
  have heval : (Expr.var v).eval (some (s.value job)) = .ok m := by
    simp [Expr.eval, Expr.evalVar, hv]
  rw [defers_encodingOf, heval]
  rfl

/-- **An encoding from a variable fails exactly when its value is neither a string nor a number.** -/
theorem encodingFails_iff (hi : i.encoding = .deferred (.var v)) (hv : s.value job v = some m) :
    i.EncodingFails job s v m.typeName ↔ m.text = none ∧ m.number = none := by
  rw [Inclusion.EncodingFails, hi, encodingOf_var hv, Expr.textOf, Prod.mk.injEq]
  cases m.text with
  | some t => simp [Except.map, Except.mapError]
  | none =>
    cases m.number with
    | some n => simp [Except.map, Except.mapError]
    | none => exact iff_of_true ⟨rfl, rfl⟩ ⟨rfl, rfl⟩

/-- An inclusion whose encoding fails asks for nothing. -/
theorem Inclusion.EncodingFails.unasked {actualType name full : String}
    (h : i.EncodingFails job s v actualType)
    (htarget : i.target.evalText (some (s.value job)) = .ok name)
    (hname : Name.resolve s.current.name name = .ok full) :
    i.Unasked job s (.run (.value (.notText v actualType)) none) := by
  have hencoding := (encodingOf_apply i.encoding s).symm.trans h
  obtain ⟨x, hx, hfails⟩ := mapError_eq_error.mp (Prod.mk.inj hencoding).1
  rw [← hfails]
  apply Unasked.attributes htarget hname
  rw [attributes, hx]
  rfl

/-- **Where the encoding fails the inclusion fails**, once the name of its target is known. -/
theorem visit_of_encodingFails {actualType name full : String} {p : Place}
    (h : i.EncodingFails job s v actualType)
    (htarget : i.target.evalText (some (s.value job)) = .ok name)
    (hname : Name.resolve s.current.name name = .ok full) :
    visit job [.inclusion p i] s =
      (.error (.run (.value (.notText v actualType))
        (some (traceLines (⟨.inclusion p i, s.current⟩ :: s.frames)))), s) := by
  -- entering the element changes nothing that the encoding depends on
  have hinside : i.EncodingFails job (s.enterElement (.inclusion p i)) v actualType := by
    have happly := (encodingOf_apply i.encoding s).symm.trans h
    rw [Inclusion.EncodingFails, encodingOf_apply]
    exact Prod.ext (Prod.mk.inj happly).1 rfl
  have hunasked : i.Unasked job (s.enterElement (.inclusion p i)) _ :=
    hinside.unasked htarget hname
  rw [visit_inclusion, Run.framed_apply, includeTarget, Run.bind_apply,
    hunasked.inclusionTarget_eq]
  rfl

end

/-! ## The two ways -/

/-- What becomes of a tag with a literal encoding of value `m`, and of the inclusion that is read from
the same tag with a variable for its encoding, where the variable has that value. -/
structure EncodingTreatment (source : String) (e : Expr) (m : Model) (v : String) (i : Inclusion)
    (job : Job) (s : RenderState) : Prop where
  /-- The tag is refused if the value is no string. -/
  refused : RefusesEncoding source e ↔ m.text = none
  /-- The inclusion fails if the value is neither a string nor a number. -/
  fails : i.EncodingFails job s v m.typeName ↔ m.text = none ∧ m.number = none
  /-- Once its target is known, the inclusion fails for its encoding and leaves the state alone. -/
  failure : i.EncodingFails job s v m.typeName → ∀ p name full,
    i.target.evalText (some (s.value job)) = .ok name →
    Name.resolve s.current.name name = .ok full →
      visit job [.inclusion p i] s =
        (.error (.run (.value (.notText v m.typeName))
          (some (traceLines (⟨.inclusion p i, s.current⟩ :: s.frames)))), s)
  /-- A string is the encoding that both ask for. -/
  string : ∀ encoding, m.text = some encoding → ∃ j, ReadAsInclusion source j ∧
    encodingOf job j.encoding s = (.ok (some encoding), s) ∧
    encodingOf job i.encoding s = (.ok (some encoding), s) ∧ ∀ d, j.Asks job s d ↔ i.Asks job s d
  /-- The digits of a number are the encoding that the inclusion asks for. -/
  number : ∀ n, m.number = some n → encodingOf job i.encoding s = (.ok (some n.text), s)

section

variable {e target : Expr} {m : Model} {assigned : Assignment} {source : String} {v : String}
  {i : Inclusion}

/-- With the same encoding, an inclusion asks for the same whether it was folded or not. -/
theorem Inclusion.asks_folded_iff {job : Job} {s : RenderState} {encoding : Option String}
    (h : encodingOf job i.encoding s = (.ok encoding, s)) (d : Demand) :
    ({ i with encoding := .folded encoding e } : Inclusion).Asks job s d ↔ i.Asks job s d := by
  have hvalue : i.encoding.value (fun e => (e.evalText (some (s.value job))).map some) =
      .ok encoding :=
    mapError_eq_ok.mp (Prod.mk.inj ((encodingOf_apply i.encoding s).symm.trans h)).1
  have hattributes :
      ({ i with encoding := .folded encoding e } : Inclusion).attributes (some (s.value job)) =
        i.attributes (some (s.value job)) := by
    rw [attributes, attributes, hvalue]
    rfl
  exact ⟨fun h => ⟨h.target, h.resolved, hattributes ▸ h.attributes⟩,
    fun h => ⟨h.target, h.resolved, hattributes ▸ h.attributes⟩⟩

/-- A tag with a string for its encoding is read as the inclusion with that encoding. -/
theorem IsInclusionTag.readAs_folded (hliteral : e.isLiteral = true) (hvalue : e.eval none = .ok m)
    (h : IsInclusionTag source target (assigned.withEncoding e)) {encoding : String}
    (htext : m.text = some encoding)
    (hi : Inclusion.fold target (some (.var v)) (assigned .parse) (assigned .ignoreMissing) =
      .ok i) :
    ReadAsInclusion source { i with encoding := .folded (some encoding) e } := by
  have hattr : Attr.fold none Inclusion.checkEncoding (some e) = _ :=
    Attr.fold_of_isLiteral hliteral hvalue
  rw [Inclusion.checkEncoding_of_text htext] at hattr
  rw [h.readAsInclusion_iff]
  obtain ⟨-, hparse, hignoreMissing⟩ := Inclusion.accepts_of_fold hi
  obtain rfl : i.target = target := (Inclusion.expressions_of_fold hi).1
  simp only [Assignment.withEncoding, Inclusion.fold, hattr, hparse, hignoreMissing]
  rfl

end

/-- **Encodings from literals and from variables agree exactly when the value is no number.** Take the
tag of an inclusion whose encoding is a literal expression with a value, and the same tag with a
variable for its encoding, read as an inclusion; let the variable have the value of the expression
where the inclusion runs. Then the tag is refused exactly when the value is no string, and the
inclusion fails exactly when it is neither a string nor a number. With a string both are accepted and
ask for that encoding. So either both or none is refused, unless the value is a number; and then the
tag is refused, but the inclusion asks for the encoding that is named by the digits. -/
theorem encodings_agree_iff_no_number {e target : Expr} {assigned : Assignment} {v : String}
    {source source' : String} {m : Model} {i : Inclusion} (hliteral : e.isLiteral = true)
    (hvalue : e.eval none = .ok m)
    (hsource : IsInclusionTag source target (assigned.withEncoding e))
    (hsource' : IsInclusionTag source' target (assigned.withEncoding (.var v)))
    (hread : ReadAsInclusion source' i) (job : Job) (s : RenderState)
    (hv : s.value job v = some m) :
    EncodingTreatment source e m v i job s ∧
      ((RefusesEncoding source e ↔ i.EncodingFails job s v m.typeName) ↔ m.number = none) := by
  have hfold := hsource'.readAsInclusion_iff.mp hread
  have hi : i.encoding = .deferred (.var v) := Inclusion.encoding_of_fold_var hfold
  have hrefused := refusesEncoding_iff hliteral hvalue hsource
  have hfails := encodingFails_iff hi hv
  refine ⟨⟨hrefused, hfails, fun h p name full => visit_of_encodingFails h, ?string, ?number⟩, ?_⟩
  case string =>
    intro encoding htext
    have hasked : encodingOf job i.encoding s = (.ok (some encoding), s) := by
      rw [hi, encodingOf_var hv, Expr.textOf, htext]
      rfl
    exact ⟨_, hsource.readAs_folded hliteral hvalue htext hfold, rfl, hasked,
      Inclusion.asks_folded_iff hasked⟩
  case number =>
    intro n hn
    -- the value of a literal is no text if it is a number
    have htext : m.text = none := by
      rcases Expr.text_or_number_of_isLiteral hliteral hvalue with h | h
      · exact h
      · simp [hn] at h
    rw [hi, encodingOf_var hv, Expr.textOf, htext, hn]
    rfl
  · rw [hrefused, hfails]
    rcases Expr.text_or_number_of_isLiteral hliteral hvalue with h | h <;> simp [h]

/-- The tag `<#include "a" encoding=… parse=false/>`. -/
def encodedTag (e : Expr) : WrittenInclusion :=
  ⟨[' '], .str "a", [⟨[' '], "encoding", e⟩, ⟨[' '], "parse", .bool false⟩], [], true⟩

/-- What these tags assign besides their encoding. -/
def unparsed : Assignment
  | .parse => some (.bool false)
  | _ => none

theorem isInclusionTag_encodedTag {e : Expr} (h : e.WellFormed) :
    IsInclusionTag (String.ofList (encodedTag e).text) (.str "a") (unparsed.withEncoding e) := by
  have hwords : IsWord "encoding".toList ∧ IsWord "parse".toList := by decide
  have hgap : [' '] ≠ [] := List.cons_ne_nil _ _
  have hwf : (encodedTag e).WellFormed := by
    refine ⟨⟨hgap, isBlank_space⟩, trivial, ?_, List.forall_mem_nil _⟩
    exact List.forall_mem_cons.mpr ⟨⟨hgap, isBlank_space, hwords.1, h⟩,
      List.forall_mem_singleton.mpr ⟨hgap, isBlank_space, hwords.2, trivial⟩⟩
  exact isInclusionTag_of_wellFormed hwf (.refl _)

/-- The tag with a variable for its encoding is read as an inclusion. -/
def deferredEncoding : Inclusion :=
  ⟨.str "a", .deferred (.var "v"), .folded false (.bool false), .default false⟩

theorem readAs_deferredEncoding :
    ReadAsInclusion (String.ofList (encodedTag (.var "v")).text) deferredEncoding := by
  have hname : (Expr.var "v").WellFormed := by
    show IsName "v".toList
    decide
  exact (isInclusionTag_encodedTag hname).readAsInclusion_iff.mpr rfl

/-- The template `a` is a text in ASCII. -/
def asciiTemplate : Store :=
  .new (Loader.empty.put "a" (.ok [104, 101, 108, 108, 111])) "utf-8"

/-- The number 646, which is a name of ASCII. -/
def asciiNumber : Expr := .number (.int 646) "646"

theorem isNumeral_ascii : asciiNumber.WellFormed :=
  ⟨.whole (List.all_eq_true.mp rfl), by decide⟩

/-- **A number is refused as an encoding, but not in a variable**: `encoding=646` is refused, and with
`encoding=v` the included text is written, decoded as ASCII, where `v` is 646. -/
theorem encoding_number_refused_in_literal_alone :
    RefusesEncoding (String.ofList (encodedTag asciiNumber).text) asciiNumber ∧
      ReadAsInclusion (String.ofList (encodedTag (.var "v")).text) deferredEncoding ∧
      let s := visit ⟨"", .defaults, [("v", .number (.int 646))]⟩
        [.inclusion ⟨1, 1⟩ deferredEncoding]
        (.initial ⟨"", [], "", none, true⟩ asciiTemplate)
      s.1 = .ok () ∧ s.2.output = "hello" := by
  refine ⟨(refusesEncoding_iff rfl rfl (isInclusionTag_encodedTag isNumeral_ascii)).mpr rfl,
    readAs_deferredEncoding, ?_, ?_⟩
  · decide +kernel
  · decide +kernel

/-- The literal expression `"us-" + "ascii"`. -/
def asciiName : Expr := .binary .add (.str "us-") (.str "ascii")

/-- With a string that is put together from two, and with a variable for it, the same is asked for. -/
theorem encodings_agree_on_concatenation :
    let job : Job := ⟨"", .defaults, [("v", .str "us-ascii")]⟩
    let s := RenderState.initial ⟨"", [], "", none, true⟩ asciiTemplate
    s.value job "v" = some (.ofText "us-ascii") ∧
      (RefusesEncoding (String.ofList (encodedTag asciiName).text) asciiName ↔
        deferredEncoding.EncodingFails job s "v" "a string") ∧
      ∃ j, ReadAsInclusion (String.ofList (encodedTag asciiName).text) j ∧
        encodingOf job j.encoding s = (.ok (some "us-ascii"), s) ∧
        ∀ d, j.Asks job s d ↔ deferredEncoding.Asks job s d := by
  intro job s
  have hname : asciiName.WellFormed := ⟨by decide, by decide, trivial, trivial⟩
  have hvariable : (Expr.var "v").WellFormed := by
    show IsName "v".toList
    decide
  have hv : s.value job "v" = some (.ofText "us-ascii") := rfl
  have hvalue : asciiName.eval none = .ok (.ofText "us-ascii") := rfl
  obtain ⟨htreatment, hagree⟩ := encodings_agree_iff_no_number (rfl : asciiName.isLiteral = true)
    hvalue (isInclusionTag_encodedTag hname) (isInclusionTag_encodedTag hvariable)
    readAs_deferredEncoding job s hv
  obtain ⟨j, hread, hencoding, -, hasks⟩ := htreatment.string "us-ascii" rfl
  exact ⟨hv, hagree.mpr rfl, j, hread, hencoding, hasks⟩

end Stencil

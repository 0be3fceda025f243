import Stencil.Proofs.Expr.Variables
import Stencil.Proofs.Render.Demand

/-!
# Folded attributes

An attribute that is written as a literal expression is computed while the template is parsed, and
any other one whenever the inclusion runs. A literal expression reads no variables, so that both
ways lead to the same value in every state of every render; and a literal `parse` or
`ignore_missing` is refused while the template is parsed exactly if its value would be refused
whenever the inclusion runs.

## Main definitions

* `Attr.FoldsAsDeferred` is an attribute whose folded value is what it would be if it were deferred.
* `Defers` says how the value of a deferred attribute is converted.
* `Inclusion.Refuses` says that a tag is refused for the value of an attribute.

## Main results

* `foldsAsDeferred_of_fold`: what is folded is what it would be if it were deferred.
* `refused_iff_fails`: what cannot be folded for its value fails whenever it runs.
* `folding_agrees_with_rendering`: both, for each of the three attributes.
-/

namespace Stencil

variable {α : Type}

/-- The attribute whose value is at fault. -/
def AttributeFault.attribute : AttributeFault → IncludeAttribute
  | encoding => .encoding
  | parseWord _ => .parse
  | parse _ => .parse
  | ignoreMissing _ => .ignoreMissing

/-- A value that is no boolean, or a string that is no yes-and-no word. -/
inductive ValueError.OfFlag : ValueError → Prop
  | notBoolean (expression actualType : String) : OfFlag (.notBoolean expression actualType)
  | unknownWord (value : String) (accepted : List String) (expression : String) :
      OfFlag (.unknownWord value accepted expression)

/-- A literal attribute is folded, and a folded one has the value that it would have in every state
if it were deferred; `of` computes the value of an attribute where an inclusion runs. -/
structure Attr.FoldsAsDeferred (of : Job → Attr α → Run α) (written : Option Expr) (a : Attr α) :
    Prop where
  folded : ∀ e, written = some e → e.isLiteral = true → ∃ v, a = .folded v e
  agrees : ∀ v e, a = .folded v e → ∀ job s, of job (.deferred e) s = (.ok v, s)

/-- The value of the deferred attribute is refused where the inclusion runs. -/
def Attr.FailsDeferred (of : Job → Attr α → Run α) (e : Expr) (job : Job) (s : RenderState) :
    Prop :=
  ∃ cause : ValueError, cause.OfFlag ∧
    of job (.deferred e) s = (.error (.run (.value cause) none), s)

/-- The tag is refused for the value that this attribute is written with. -/
def Inclusion.Refuses (target : Expr) (encoding parse ignoreMissing : Option Expr)
    (which : IncludeAttribute) (e : Expr) : Prop :=
  ∃ fault, Inclusion.fold target encoding parse ignoreMissing = .error (.refused fault e) ∧
    fault.attribute = which

/-! ## Deferred attributes -/

/-- A deferred attribute is evaluated in the scope of the state, and its value is then converted. -/
def Defers (of : Job → Attr α → Run α) (convert : Expr → Model → Except EvalError α) : Prop :=
  ∀ job e s, of job (.deferred e) s =
    ((e.eval (some (s.value job)) >>= convert e).mapError .ofEval, s)

theorem defers_encodingOf : Defers encodingOf fun e m => (e.textOf m).map some := by
  intro job e s
  rw [encodingOf_apply, Attr.value, Expr.evalText]
  cases e.eval (some (s.value job)) <;> rfl

theorem defers_parseOf : Defers parseOf fun e m => (parseFlagOf e m).mapError .value := by
  intro job e s
  rw [parseOf_apply]
  rfl

theorem defers_ignoreMissingOf : Defers ignoreMissingOf Expr.flagOf := by
  intro job e s
  rw [ignoreMissingOf_apply]
  rfl

section

variable {of : Job → Attr α → Run α} {convert : Expr → Model → Except EvalError α}
  {check : Expr → Model → Except AttributeFault α} {fallback : α} {written : Option Expr}
  {a : Attr α} {e : Expr} {m : Model}

/-- In every state a literal attribute has the value that it has without variables. -/
theorem Defers.of_isLiteral (hof : Defers of convert) (hliteral : e.isLiteral = true)
    (hvalue : e.eval none = .ok m) (job : Job) (s : RenderState) :
    of job (.deferred e) s = ((convert e m).mapError .ofEval, s) := by
  rw [hof, Expr.eval_of_isLiteral hliteral _ none, hvalue]
  rfl

/-! ## Folding one attribute -/

theorem Attr.fold_of_isLiteral (hliteral : e.isLiteral = true) (hvalue : e.eval none = .ok m) :
    Attr.fold fallback check (some e) =
      match check e m with
      | .ok v => .ok (.folded v e)
      | .error fault => .error (.refused fault e) := by
  cases hcheck : check e m <;> simp only [fold, if_pos hliteral, hvalue, hcheck]

/-- An attribute is folded if it is a literal expression whose value passes the check. -/
theorem Attr.folded_of_fold (h : Attr.fold fallback check written = .ok a) :
    (∀ e, written = some e → e.isLiteral = true → ∃ v, a = .folded v e) ∧
      ∀ v e, a = .folded v e →
        e.isLiteral = true ∧ ∃ m, e.eval none = .ok m ∧ check e m = .ok v := by
  unfold fold at h
  split at h
  · cases h
    exact ⟨nofun, nofun⟩
  · split at h
    · next hliteral =>
      split at h
      · cases h
      · next m hvalue =>
        split at h
        · next v hcheck =>
          cases h
          refine ⟨fun e he _ => ?_, fun v e he => ?_⟩
          · cases he
            exact ⟨v, rfl⟩
          · cases he
            exact ⟨hliteral, m, hvalue, hcheck⟩
        · cases h
    · next hdeferred =>
      cases h
      refine ⟨fun e he hliteral => ?_, nofun⟩
      cases he
      exact absurd hliteral hdeferred

theorem Attr.check_of_refused {fault : AttributeFault}
    (h : Attr.fold fallback check written = .error (.refused fault e)) :
    ∃ m, check e m = .error fault := by
  unfold fold at h
  split at h
  · cases h
  · split at h
    · split at h
      · cases h
      · next m _ =>
        split at h
        · cases h
        · next hcheck =>
          cases h
          exact ⟨m, hcheck⟩
    · cases h

/-- **What is folded is what it would be if it were deferred**, when the check lets values pass that
are converted alike. -/
theorem foldsAsDeferred_of_fold (hof : Defers of convert)
    (hcheck : ∀ e m v, check e m = .ok v → convert e m = .ok v)
    (h : Attr.fold fallback check written = .ok a) : a.FoldsAsDeferred of written where
  folded := (Attr.folded_of_fold h).1
  agrees v e hfolded job s := by
    obtain ⟨hliteral, m, hvalue, hv⟩ := (Attr.folded_of_fold h).2 v e hfolded
    rw [hof.of_isLiteral hliteral hvalue, hcheck e m v hv]
    rfl

/-- **What cannot be folded for its value fails whenever it runs**, when the check refuses values
that cannot be converted. -/
theorem refused_iff_fails (hof : Defers of convert) (hliteral : e.isLiteral = true)
    (hvalue : e.eval none = .ok m)
    (hcheck : (∃ fault, check e m = .error fault) ↔
      ∃ cause : ValueError, cause.OfFlag ∧ convert e m = .error (.value cause)) :
    (∃ fault, Attr.fold fallback check (some e) = .error (.refused fault e)) ↔
      ∀ job s, Attr.FailsDeferred of e job s := by
  have hrefused : (∃ fault, Attr.fold fallback check (some e) = .error (.refused fault e)) ↔
      ∃ fault, check e m = .error fault := by
    rw [Attr.fold_of_isLiteral hliteral hvalue]
    cases check e m <;> simp
  rw [hrefused, hcheck]
  constructor
  · rintro ⟨cause, hcause, hconvert⟩ job s
    refine ⟨cause, hcause, ?_⟩
    rw [hof.of_isLiteral hliteral hvalue, hconvert]
    rfl
  · intro h
    -- one state will do, since the value is the same in all of them
    obtain ⟨cause, hcause, hfails⟩ :=
      h ⟨"", .defaults, []⟩ (.initial default (.new .empty ""))
    rw [hof.of_isLiteral hliteral hvalue] at hfails
    refine ⟨cause, hcause, ?_⟩
    cases hconvert : convert e m with
    | ok v => rw [hconvert] at hfails; cases hfails
    | error x =>
      rw [hconvert] at hfails
      cases x <;> cases hfails
      rfl

end

/-! ## The three attributes -/

namespace Inclusion

variable {e : Expr} {m : Model}

theorem textOf_of_checkEncoding {v : Option String} (h : checkEncoding e m = .ok v) :
    (e.textOf m).map some = .ok v := by
  unfold checkEncoding at h
  split at h
  · next s htext =>
    cases h
    rw [Expr.textOf, htext]
    rfl
  · cases h

theorem checkParse_eq_ok_iff_parseFlagOf {b : Bool} :
    checkParse e m = .ok b ↔ parseFlagOf e m = .ok b := by
  unfold checkParse
  split <;> simp_all

theorem flagOf_of_checkIgnoreMissing {b : Bool} (h : checkIgnoreMissing e m = .ok b) :
    e.flagOf m = .ok b := by
  unfold checkIgnoreMissing at h
  split at h
  · next hflag =>
    cases h
    rw [Expr.flagOf, hflag]
  · cases h

theorem ofFlag_of_parseFlagOf {x : ValueError} (h : parseFlagOf e m = .error x) : x.OfFlag := by
  unfold parseFlagOf at h
  split at h
  · split at h <;> cases h
    exact .unknownWord _ _ _
  · split at h <;> cases h
    exact .notBoolean _ _

/-- A value for `parse` is refused if it would fail where the inclusion runs. -/
theorem checkParse_error_iff :
    (∃ fault, checkParse e m = .error fault) ↔
      ∃ cause : ValueError, cause.OfFlag ∧
        (parseFlagOf e m).mapError EvalError.value = .error (.value cause) := by
  unfold checkParse
  cases hflag : parseFlagOf e m with
  | ok b => exact iff_of_false (fun ⟨_, h⟩ => nomatch h) fun ⟨_, _, h⟩ => nomatch h
  | error x =>
    have hx := ofFlag_of_parseFlagOf hflag
    refine iff_of_true ?_ ⟨x, hx, rfl⟩
    cases hx <;> exact ⟨_, rfl⟩

theorem checkIgnoreMissing_error_iff :
    (∃ fault, checkIgnoreMissing e m = .error fault) ↔
      ∃ cause : ValueError, cause.OfFlag ∧ e.flagOf m = .error (.value cause) := by
  unfold checkIgnoreMissing Expr.flagOf
  cases m.flag with
  | some b => exact iff_of_false (fun ⟨_, h⟩ => nomatch h) fun ⟨_, _, h⟩ => nomatch h
  | none => exact iff_of_true ⟨_, rfl⟩ ⟨_, .notBoolean _ _, rfl⟩

/-- The checks find fault with their own attributes. -/
theorem attribute_of_checkEncoding {fault : AttributeFault}
    (h : checkEncoding e m = .error fault) : fault.attribute = .encoding := by
  unfold checkEncoding at h
  split at h <;> cases h
  rfl

theorem attribute_of_checkParse {fault : AttributeFault} (h : checkParse e m = .error fault) :
    fault.attribute = .parse := by
  unfold checkParse at h
  split at h <;> cases h <;> rfl

theorem attribute_of_checkIgnoreMissing {fault : AttributeFault}
    (h : checkIgnoreMissing e m = .error fault) : fault.attribute = .ignoreMissing := by
  unfold checkIgnoreMissing at h
  split at h <;> cases h
  rfl

section

variable {target : Expr} {encoding parse ignoreMissing : Option Expr}

/-- An inclusion is built of attributes that are accepted. -/
theorem accepts_of_fold {i : Inclusion}
    (h : fold target encoding parse ignoreMissing = .ok i) :
    Attr.fold none checkEncoding encoding = .ok i.encoding ∧
      Attr.fold true checkParse parse = .ok i.parse ∧
        Attr.fold false checkIgnoreMissing ignoreMissing = .ok i.ignoreMissing := by
  obtain ⟨a, hencoding, h⟩ := bind_eq_ok.mp h
  obtain ⟨b, hparse, h⟩ := bind_eq_ok.mp h
  obtain ⟨c, hignoreMissing, h⟩ := bind_eq_ok.mp h
  cases h
  exact ⟨hencoding, hparse, hignoreMissing⟩

/-- A tag is refused for `parse` if that cannot be folded, behind an encoding that is accepted. -/
theorem refuses_parse_iff :
    Refuses target encoding parse ignoreMissing .parse e ↔
      (∃ a, Attr.fold none checkEncoding encoding = .ok a) ∧
        ∃ fault, Attr.fold true checkParse parse = .error (.refused fault e) := by
  constructor
  · rintro ⟨fault, h, hattribute⟩
    -- a fault of one of the other attributes is none of `parse`
    rcases bind_eq_error.mp h with h | ⟨a, ha, h⟩
    · obtain ⟨m, hm⟩ := Attr.check_of_refused h
      cases (attribute_of_checkEncoding hm).symm.trans hattribute
    rcases bind_eq_error.mp h with h | ⟨b, -, h⟩
    · exact ⟨⟨a, ha⟩, fault, h⟩
    rcases bind_eq_error.mp h with h | ⟨c, -, h⟩
    · obtain ⟨m, hm⟩ := Attr.check_of_refused h
      cases (attribute_of_checkIgnoreMissing hm).symm.trans hattribute
    · cases h
  · rintro ⟨⟨a, ha⟩, fault, h⟩
    obtain ⟨m, hm⟩ := Attr.check_of_refused h
    exact ⟨fault, bind_eq_error.mpr (.inr ⟨a, ha, bind_eq_error.mpr (.inl h)⟩),
      attribute_of_checkParse hm⟩

/-- A tag is refused for `ignore_missing` if that cannot be folded, behind an encoding and a `parse`
that are accepted. -/
theorem refuses_ignoreMissing_iff :
    Refuses target encoding parse ignoreMissing .ignoreMissing e ↔
      ((∃ a, Attr.fold none checkEncoding encoding = .ok a) ∧
          ∃ b, Attr.fold true checkParse parse = .ok b) ∧
        ∃ fault, Attr.fold false checkIgnoreMissing ignoreMissing = .error (.refused fault e) := by
  constructor
  · rintro ⟨fault, h, hattribute⟩
    rcases bind_eq_error.mp h with h | ⟨a, ha, h⟩
    · obtain ⟨m, hm⟩ := Attr.check_of_refused h
      cases (attribute_of_checkEncoding hm).symm.trans hattribute
    rcases bind_eq_error.mp h with h | ⟨b, hb, h⟩
    · obtain ⟨m, hm⟩ := Attr.check_of_refused h
      cases (attribute_of_checkParse hm).symm.trans hattribute
    rcases bind_eq_error.mp h with h | ⟨c, -, h⟩
    · exact ⟨⟨⟨a, ha⟩, b, hb⟩, fault, h⟩
    · cases h
  · rintro ⟨⟨⟨a, ha⟩, b, hb⟩, fault, h⟩
    obtain ⟨m, hm⟩ := Attr.check_of_refused h
    refine ⟨fault, bind_eq_error.mpr (.inr ⟨a, ha, ?_⟩), attribute_of_checkIgnoreMissing hm⟩
    exact bind_eq_error.mpr (.inr ⟨b, hb, bind_eq_error.mpr (.inl h)⟩)

end

end Inclusion

/-- **Folding agrees with rendering.** Every attribute of an inclusion that is written as a literal
expression is folded, and its value is the one that the same expression gives, as a deferred
attribute, in every state of every render. A tag is refused for a literal `parse` or
`ignore_missing` that has a value exactly if that value fails, as a deferred attribute, in every
state of every render, as no boolean or as an unknown yes-and-no word, and the attributes before it
are accepted; whatever these are, there is no inclusion with a value that fails so. -/
theorem folding_agrees_with_rendering (target : Expr)
    (encoding parse ignoreMissing : Option Expr) :
    (∀ i, Inclusion.fold target encoding parse ignoreMissing = .ok i →
      i.encoding.FoldsAsDeferred encodingOf encoding ∧ i.parse.FoldsAsDeferred parseOf parse ∧
        i.ignoreMissing.FoldsAsDeferred ignoreMissingOf ignoreMissing) ∧
      (∀ e m, parse = some e → e.isLiteral = true → e.eval none = .ok m →
        (Inclusion.Refuses target encoding parse ignoreMissing .parse e ↔
            (∃ a, Attr.fold none Inclusion.checkEncoding encoding = .ok a) ∧
              ∀ job s, Attr.FailsDeferred parseOf e job s) ∧
          ((∀ job s, Attr.FailsDeferred parseOf e job s) →
            ∃ x, Inclusion.fold target encoding parse ignoreMissing = .error x)) ∧
      ∀ e m, ignoreMissing = some e → e.isLiteral = true → e.eval none = .ok m →
        (Inclusion.Refuses target encoding parse ignoreMissing .ignoreMissing e ↔
            ((∃ a, Attr.fold none Inclusion.checkEncoding encoding = .ok a) ∧
                ∃ b, Attr.fold true Inclusion.checkParse parse = .ok b) ∧
              ∀ job s, Attr.FailsDeferred ignoreMissingOf e job s) ∧
          ((∀ job s, Attr.FailsDeferred ignoreMissingOf e job s) →
            ∃ x, Inclusion.fold target encoding parse ignoreMissing = .error x) := by
  refine ⟨fun i h => ?_, fun e m hwritten hliteral hvalue => ?_,
    fun e m hwritten hliteral hvalue => ?_⟩
  · obtain ⟨hencoding, hparse, hignoreMissing⟩ := Inclusion.accepts_of_fold h
    refine ⟨foldsAsDeferred_of_fold defers_encodingOf ?_ hencoding,
      foldsAsDeferred_of_fold defers_parseOf ?_ hparse,
      foldsAsDeferred_of_fold defers_ignoreMissingOf ?_ hignoreMissing⟩
    · exact fun e m v => Inclusion.textOf_of_checkEncoding
    · intro e m v hv
      rw [Inclusion.checkParse_eq_ok_iff_parseFlagOf.mp hv]
      rfl
    · exact fun e m v => Inclusion.flagOf_of_checkIgnoreMissing
  · subst hwritten
    have hrefused :
        (∃ fault, Attr.fold true Inclusion.checkParse (some e) = .error (.refused fault e)) ↔ _ :=
      refused_iff_fails defers_parseOf hliteral hvalue Inclusion.checkParse_error_iff
    refine ⟨by rw [Inclusion.refuses_parse_iff, hrefused], fun hfails => ?_⟩
    -- an inclusion would have accepted the attribute
    obtain ⟨fault, hfault⟩ := hrefused.mpr hfails
    cases hfold : Inclusion.fold target encoding (some e) ignoreMissing with
    | error x => exact ⟨x, rfl⟩
    | ok i => cases hfault.symm.trans (Inclusion.accepts_of_fold hfold).2.1
  · subst hwritten
    have hrefused : (∃ fault,
        Attr.fold false Inclusion.checkIgnoreMissing (some e) = .error (.refused fault e)) ↔ _ :=
      refused_iff_fails defers_ignoreMissingOf hliteral hvalue
        Inclusion.checkIgnoreMissing_error_iff
    refine ⟨by rw [Inclusion.refuses_ignoreMissing_iff, hrefused], fun hfails => ?_⟩
    obtain ⟨fault, hfault⟩ := hrefused.mpr hfails
    cases hfold : Inclusion.fold target encoding parse (some e) with
    | error x => exact ⟨x, rfl⟩
    | ok i => cases hfault.symm.trans (Inclusion.accepts_of_fold hfold).2.2

/-- `maybe` is no yes-and-no word: a tag that writes it for `parse` is refused, behind an encoding
that is put together from literals, and evaluating it later would fail in every state. -/
theorem refuses_unknown_word :
    Inclusion.Refuses (.str "a") (some (.binary .add (.str "utf") (.str "-8")))
        (some (.str "maybe")) none .parse (.str "maybe") ∧
      ∀ job s, Attr.FailsDeferred parseOf (.str "maybe") job s := by
  obtain ⟨-, hparse, -⟩ := folding_agrees_with_rendering (.str "a")
    (some (.binary .add (.str "utf") (.str "-8"))) (some (.str "maybe")) none
  have hrefused : Inclusion.Refuses (.str "a") (some (.binary .add (.str "utf") (.str "-8")))
      (some (.str "maybe")) none .parse (.str "maybe") := ⟨_, rfl, rfl⟩
  exact ⟨hrefused, ((hparse (.str "maybe") _ rfl rfl rfl).1.mp hrefused).2⟩

end Stencil

import Stencil.Proofs.Render.Alike
import Stencil.Proofs.Render.Demand
import Stencil.Proofs.Render.Visit

/-!
# Targets that may be missing

With `ignore_missing` an inclusion passes over a target that is neither remembered nor has a source.
In every other case, whatever it includes and whatever fails there, it runs as it does without: to
the same state, and with the same outcome but for the line of a trace that shows the inclusion.

## Main definitions

* `Inclusion.strict` and `Inclusion.lenient` are an inclusion without and with `ignore_missing`.
* `Inclusion.Misses` says that an inclusion asks for a template that is missing.

## Main results

* `inclusionTarget_lenient`: an inclusion that does not miss its target finds it with and without.
* `RenderState.Alike.eq_of_kept`: where running leaves off depends on what is alike alone.
* `lenient_hides_missing_alone`: what `ignore_missing` changes.
-/

namespace Stencil

namespace Inclusion

/-- The inclusion that does not write `ignore_missing`. -/
def strict (i : Inclusion) : Inclusion := { i with ignoreMissing := .default false }

/-- The inclusion that writes `ignore_missing=true`. -/
def lenient (i : Inclusion) : Inclusion := { i with ignoreMissing := .folded true (.bool true) }

/-- The inclusion asks for a template that is not remembered and has no source. -/
structure Misses (job : Job) (i : Inclusion) (s : RenderState) (d : Demand) : Prop where
  asks : i.Asks job s d
  unremembered : ∀ r, (d.query job).request s.store.defaultEncoding = .ok r →
    s.store.remembered? r = none
  sourceless : s.store.loader.find d.full = none

/-- Tags that differ in `ignore_missing=true` alone give inclusions that do. -/
theorem fold_lenient {target : Expr} {encoding parse : Option Expr} {i : Inclusion}
    (h : fold target encoding parse none = .ok i) :
    i.strict = i ∧ fold target encoding parse (some (.bool true)) = .ok i.lenient := by
  unfold fold at h ⊢
  obtain ⟨a, hencoding, h⟩ := bind_eq_ok.mp h
  obtain ⟨b, hparse, h⟩ := bind_eq_ok.mp h
  cases h
  rw [hencoding, hparse]
  exact ⟨rfl, rfl⟩

/-! ## What is asked for -/

section

variable {job : Job} {i : Inclusion} {s : RenderState} {d : Demand}

/-- How the target is read: its encoding, and whether it is parsed. -/
def reading (i : Inclusion) (scope : Scope) : Except EvalError (Option String × Bool) := do
  let encoding ← i.encoding.value fun e => (e.evalText scope).map some
  let parse ← i.parse.value fun e => do (parseFlagOf e (← e.eval scope)).mapError .value
  return (encoding, parse)

theorem attributes_strict (i : Inclusion) (scope : Scope) :
    i.strict.attributes scope = (i.reading scope).map fun a => (a.1, a.2, false) := by
  unfold attributes reading strict
  cases i.encoding.value _ with
  | error x => rfl
  | ok encoding => cases i.parse.value _ <;> rfl

theorem attributes_lenient (i : Inclusion) (scope : Scope) :
    i.lenient.attributes scope = (i.reading scope).map fun a => (a.1, a.2, true) := by
  unfold attributes reading lenient
  cases i.encoding.value _ with
  | error x => rfl
  | ok encoding => cases i.parse.value _ <;> rfl

/-- With `ignore_missing` an inclusion asks for the same, but for a template that may be missing. -/
theorem Asks.lenient (h : i.strict.Asks job s d) :
    d.ignoreMissing = false ∧ i.lenient.Asks job s { d with ignoreMissing := true } := by
  have hattributes := h.attributes
  rw [attributes_strict] at hattributes
  obtain ⟨a, hreading, ha⟩ := map_eq_ok.mp hattributes
  obtain ⟨hencoding, hparse, hignore⟩ :
      a.1 = d.encoding ∧ a.2 = d.parse ∧ false = d.ignoreMissing := by
    simpa using ha
  refine ⟨hignore.symm, h.target, h.resolved, ?_⟩
  rw [attributes_lenient, hreading, ← hencoding, ← hparse]
  rfl

theorem Unasked.lenient {x : Failure} (h : i.strict.Unasked job s x) :
    i.lenient.Unasked job s x := by
  cases h with
  | target htarget => exact .target htarget
  | name htarget hname => exact .name htarget hname
  | attributes htarget hname hattributes =>
    rw [attributes_strict] at hattributes
    refine .attributes htarget hname ?_
    rw [attributes_lenient, map_eq_error.mp hattributes]
    rfl

/-- On the stack of running elements, an inclusion asks for what it asks for below. -/
theorem Asks.enterElement_iff {e : Element} : i.Asks job (s.enterElement e) d ↔ i.Asks job s d :=
  ⟨fun h => ⟨h.target, h.resolved, h.attributes⟩, fun h => ⟨h.target, h.resolved, h.attributes⟩⟩

theorem Misses.enterElement_iff {e : Element} :
    i.Misses job (s.enterElement e) d ↔ i.Misses job s d :=
  ⟨fun h => ⟨Asks.enterElement_iff.mp h.asks, h.unremembered, h.sourceless⟩,
    fun h => ⟨Asks.enterElement_iff.mpr h.asks, h.unremembered, h.sourceless⟩⟩

/-! ## What is found -/

/-- An inclusion that asks for something finds what the store answers to its request. -/
theorem Asks.inclusionTarget_apply (h : i.Asks job s d) {r : Request}
    (hrequest : (d.query job).request s.store.defaultEncoding = .ok r) :
    inclusionTarget job i s =
      ((s.store.answer r d.ignoreMissing).1.mapError (includeFailure d.name),
        { s with store := (s.store.answer r d.ignoreMissing).2 }) := by
  rw [h.inclusionTarget_ask, Store.ask_of_request hrequest]
  rfl

/-- An inclusion that does not miss its target finds it, or fails, with and without `ignore_missing`
alike. -/
theorem inclusionTarget_lenient (h : ¬ ∃ d, i.strict.Misses job s d) :
    inclusionTarget job i.strict s = inclusionTarget job i.lenient s := by
  rcases i.strict.asks_or_unasked job s with ⟨d, hasks⟩ | ⟨x, hunasked⟩
  · obtain ⟨hignore, hlenient⟩ := hasks.lenient
    obtain ⟨r, hrequest, hname, -⟩ := hasks.request s.store.defaultEncoding
    have hsourced : s.store.remembered? r = none → s.store.loader.find r.name ≠ none := by
      intro hnew hsource
      refine h ⟨d, hasks, fun r' hrequest' => ?_, hname ▸ hsource⟩
      cases hrequest.symm.trans hrequest'
      exact hnew
    -- both ask the same question, and the store has something to answer it with
    rw [hasks.inclusionTarget_apply hrequest, hlenient.inclusionTarget_apply hrequest,
      Store.answer_of_sourced hsourced d.ignoreMissing true]
  · rw [hunasked.lenient.inclusionTarget_eq, hunasked.inclusionTarget_eq]

/-- An inclusion that misses its target fails for that, and passes over it with `ignore_missing`;
the state stays as it is. -/
theorem Misses.inclusionTarget (h : i.strict.Misses job s d) :
    inclusionTarget job i.strict s =
        (.error (.run (.inclusion d.name (some ⟨d.full, .notFound ""⟩)) none), s) ∧
      inclusionTarget job i.lenient s = (.ok none, s) := by
  obtain ⟨hignore, hlenient⟩ := h.asks.lenient
  obtain ⟨r, hrequest, hname, -⟩ := h.asks.request s.store.defaultEncoding
  have hmissing := Store.answer_of_sourceless (h.unremembered r hrequest) (hname ▸ h.sourceless)
  rw [h.asks.inclusionTarget_apply hrequest, hlenient.inclusionTarget_apply hrequest, hignore,
    hmissing, hmissing, ← hname]
  exact ⟨rfl, rfl⟩

end

end Inclusion

/-! ## What runs -/

/-- States that are alike, and that running has led to from the same state, are the same. -/
theorem RenderState.Alike.eq_of_kept {s t u : RenderState} (h : t.Alike u) (ht : Kept s t)
    (hu : Kept s u) : t = u := by
  obtain ⟨-, houtput, hglobals, hlocals, hchain, hstore⟩ := h
  have hcurrent : t.current = u.current := ht.current.trans hu.current.symm
  have hframes : t.frames = u.frames := ht.frames.trans hu.frames.symm
  cases t
  cases u
  simp only [RenderState.mk.injEq]
  exact ⟨hcurrent, houtput, hglobals, hlocals, hframes, hchain, hstore⟩

theorem visit_inclusion (job : Job) (p : Place) (i : Inclusion) (s : RenderState) :
    visit job [.inclusion p i] s =
      Run.framed (.inclusion p i) (includeTarget job (enter job (s.budget job)) i) s := by
  rw [visit_singleton, runElement_inclusion]

section

variable {job : Job} {i : Inclusion} {s : RenderState} {p : Place}

/-- An inclusion that does not miss its target runs with `ignore_missing` as it does without. -/
theorem visit_lenient (h : ¬ ∃ d, i.strict.Misses job s d) :
    (visit job [.inclusion p i.strict] s).1.mapError Failure.untraced =
        (visit job [.inclusion p i.lenient] s).1.mapError Failure.untraced ∧
      (visit job [.inclusion p i.strict] s).2 = (visit job [.inclusion p i.lenient] s).2 := by
  have htarget : inclusionTarget job i.strict (s.enterElement (.inclusion p i.strict)) =
      inclusionTarget job i.lenient (s.enterElement (.inclusion p i.strict)) :=
    Inclusion.inclusionTarget_lenient fun ⟨d, hd⟩ => h ⟨d, Inclusion.Misses.enterElement_iff.mp hd⟩
  have hlenient : (includeTarget job (enter job (s.budget job)) i.lenient).Alike
      (includeTarget job (enter job (s.budget job)) i.lenient) :=
    alike_includeTarget (alike_enter (s.budget job)) i.lenient
  have hrun : visit job [.inclusion p i.strict] s =
      Run.framed (.inclusion p i.strict)
        (includeTarget job (enter job (s.budget job)) i.lenient) s := by
    rw [visit_inclusion, Run.framed_apply, Run.framed_apply, includeTarget, includeTarget,
      Run.bind_apply, Run.bind_apply, htarget]
  -- now the two differ in the element on the stack alone
  obtain ⟨houtcome, hstate⟩ :=
    (respected_alike job).framed (.inclusion p i.strict) (.inclusion p i.lenient) hlenient s s
      (.refl s)
  rw [← visit_inclusion, ← hrun] at houtcome hstate
  exact ⟨houtcome, hstate.eq_of_kept (keeps_visit _ s) (keeps_visit _ s)⟩

/-- An inclusion that misses its target fails for that, and passes over it with `ignore_missing`. -/
theorem visit_of_misses {d : Demand} (h : i.strict.Misses job s d) :
    visit job [.inclusion p i.strict] s =
        (.error (.run (.inclusion d.name (some ⟨d.full, .notFound ""⟩))
          (some (traceLines (⟨.inclusion p i.strict, s.current⟩ :: s.frames)))), s) ∧
      visit job [.inclusion p i.lenient] s = (.ok (), s) := by
  have htarget : ∀ e : Element, _ := fun e =>
    (Inclusion.Misses.enterElement_iff (e := e).mpr h).inclusionTarget
  rw [visit_inclusion, visit_inclusion, Run.framed_apply, Run.framed_apply, includeTarget,
    includeTarget, Run.bind_apply, Run.bind_apply, (htarget _).1, (htarget _).2]
  exact ⟨rfl, rfl⟩

end

/-- **`ignore_missing` hides a missing target and nothing else.** An inclusion that writes
`ignore_missing=true` differs from one that does not where the target, named by expressions that
have values, is neither remembered nor has a source. There the one without fails, the cause being
that there is no such template, and the one with it passes over its target; both leave the state as
it is. In every other case both end with the same outcome, up to the trace, and in one state. -/
theorem lenient_hides_missing_alone (job : Job) (s : RenderState) (p : Place) (target : Expr)
    (encoding parse : Option Expr) (strict : Inclusion)
    (hstrict : Inclusion.fold target encoding parse none = .ok strict) :
    ∃ lenient, Inclusion.fold target encoding parse (some (.bool true)) = .ok lenient ∧
      ((¬ ∃ d, strict.Misses job s d) →
        (visit job [.inclusion p strict] s).1.mapError Failure.untraced =
            (visit job [.inclusion p lenient] s).1.mapError Failure.untraced ∧
          (visit job [.inclusion p strict] s).2 = (visit job [.inclusion p lenient] s).2) ∧
      ∀ d, strict.Misses job s d →
        visit job [.inclusion p strict] s =
            (.error (.run (.inclusion d.name (some ⟨d.full, .notFound ""⟩))
              (some (traceLines (⟨.inclusion p strict, s.current⟩ :: s.frames)))), s) ∧
          visit job [.inclusion p lenient] s = (.ok (), s) := by
  obtain ⟨hfold, hlenient⟩ := Inclusion.fold_lenient hstrict
  rw [← hfold]
  exact ⟨strict.lenient, hlenient, visit_lenient, fun d => visit_of_misses⟩

/-- The inclusion of a template that there is nowhere. -/
def nowhere : Inclusion := ⟨.str "c", .default none, .default true, .default false⟩

/-- The template `b`, which includes what there is nowhere. -/
def stray : Template := ⟨"b", [.inclusion ⟨1, 1⟩ nowhere], "dict:b", some "utf-8", true⟩

/-- The template `a` runs, and `b` is loaded. -/
def astray : RenderState :=
  .initial ⟨"a", [], "dict:a", some "utf-8", true⟩
    ⟨.empty, "utf-8", [(⟨"b", "utf-8", true⟩, stray)]⟩

/-- With `ignore_missing` the inclusion of `c` is passed over, but that of `b` fails, as it does
without, for the template that it includes. -/
theorem lenient_hides_nowhere_alone :
    (∃ lenient, Inclusion.fold (.str "c") none none (some (.bool true)) = .ok lenient ∧
        visit ⟨"a", .defaults, []⟩ [.inclusion ⟨1, 1⟩ lenient] astray = (.ok (), astray)) ∧
      ∃ lenient, Inclusion.fold (.str "b") none none (some (.bool true)) = .ok lenient ∧
        (visit ⟨"a", .defaults, []⟩ [.inclusion ⟨1, 1⟩ lenient] astray).1.mapError
          Failure.untraced = .error (.run (.inclusion "c" (some ⟨"c", .notFound ""⟩)) none) := by
  constructor
  · obtain ⟨lenient, hfold, -, hmisses⟩ :=
      lenient_hides_missing_alone ⟨"a", .defaults, []⟩ astray ⟨1, 1⟩ (.str "c") none none nowhere
        rfl
    have hmissing : nowhere.Misses ⟨"a", .defaults, []⟩ astray ⟨"c", "c", none, true, false⟩ :=
      ⟨⟨rfl, rfl, rfl⟩, fun r hr => by cases hr; rfl, rfl⟩
    exact ⟨lenient, hfold, (hmisses _ hmissing).2⟩
  · obtain ⟨lenient, hfold, hfound, -⟩ :=
      lenient_hides_missing_alone ⟨"a", .defaults, []⟩ astray ⟨1, 1⟩ (.str "b") none none
        ⟨.str "b", .default none, .default true, .default false⟩ rfl
    -- all that this inclusion can ask for is `b`, which is remembered
    have hremembered : ¬ ∃ d, Inclusion.Misses ⟨"a", .defaults, []⟩
        ⟨.str "b", .default none, .default true, .default false⟩ astray d := by
      rintro ⟨⟨name, full, encoding, parse, ignoreMissing⟩, hasks, hnew, -⟩
      cases hasks.target
      have hname : Name.resolve astray.current.name "b" = .ok "b" := rfl
      obtain rfl : full = "b" := Except.ok.inj (hasks.resolved.symm.trans hname)
      cases hasks.attributes
      cases hnew _ rfl
    exact ⟨lenient, hfold, (hfound hremembered).1.symm.trans rfl⟩

end Stencil

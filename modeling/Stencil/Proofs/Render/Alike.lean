import Stencil.Proofs.Render.Composition
import Stencil.Proofs.Template.Joining

/-!
# Elements that run alike

Two states may differ in what an element neither reads nor writes. A relation of states that says so
is respected by all elements that include nothing: from related states they end with the same
outcome up to its trace, in states that are related again.

Where elements stand, and whether a text is written at once or in parts, shows in traces alone. So
elements that agree run alike, and so do elements and the same elements with neighbouring texts
joined: from states that differ at most in the running elements and in the template that is running,
but for its name, they end with the same outcome up to its trace, in states that differ no more.

## Main definitions

* `Failure.untraced` is a failure without its trace.
* `Run.AlikeUnder` relates steps that do the same from states in a relation, `Run.Respected` is a
  relation that elements respect.
* `RenderState.Alike` relates states that differ in what traces show alone.
* `Run.Alike` relates steps that do the same from states that are alike.

## Main results

* `Run.Respected.text` and the lemmas beside it: elements run alike under a respected relation.
* `alike_visit`: elements that agree once joined run alike.
-/

namespace Stencil

/-- A failure without its trace. -/
def Failure.untraced : Failure → Failure
  | run e _ => run e none
  | e => e

/-! ## Steps under a relation of states -/

namespace Run

variable {α β : Type} {R : RenderState → RenderState → Prop}

/-- From related states, the steps end with the same outcome up to traces, in related states. -/
def AlikeUnder (R : RenderState → RenderState → Prop) (m n : Run α) : Prop :=
  ∀ s t : RenderState, R s t →
    (m s).1.mapError Failure.untraced = (n t).1.mapError Failure.untraced ∧ R (m s).2 (n t).2

namespace AlikeUnder

/-- Steps that are alike both succeed with the same result, or both fail with the same failure up to
its trace. -/
theorem cases {m n : Run α} (h : AlikeUnder R m n) {s t : RenderState} (hst : R s t) :
    (∃ a s' t', m s = (.ok a, s') ∧ n t = (.ok a, t') ∧ R s' t') ∨
      ∃ e f s' t', m s = (.error e, s') ∧ n t = (.error f, t') ∧ e.untraced = f.untraced ∧
        R s' t' := by
  obtain ⟨houtcome, hstate⟩ := h s t hst
  rcases hm : m s with ⟨e | a, s'⟩ <;> rcases hn : n t with ⟨f | b, t'⟩ <;>
    rw [hm, hn] at houtcome hstate
  · exact Or.inr ⟨e, f, s', t', rfl, rfl, Except.error.inj houtcome, hstate⟩
  · cases houtcome
  · cases houtcome
  · cases houtcome
    exact Or.inl ⟨a, s', t', rfl, rfl, hstate⟩

theorem pure (a : α) : AlikeUnder R (Pure.pure a) (Pure.pure a) := fun _ _ hst => ⟨rfl, hst⟩

/-- A sequence of steps goes on alike, behind a first step with the same result. -/
theorem bind {m n : Run α} {f g : α → Run β} (h : AlikeUnder R m n)
    (hf : ∀ a, AlikeUnder R (f a) (g a)) : AlikeUnder R (m >>= f) (n >>= g) := by
  intro s t hst
  rw [bind_apply, bind_apply]
  rcases h.cases hst with ⟨a, s', t', hm, hn, hstate⟩ | ⟨e, f, s', t', hm, hn, htrace, hstate⟩
  · rw [hm, hn]
    exact hf a s' t' hstate
  · rw [hm, hn]
    exact ⟨congrArg Except.error htrace, hstate⟩

theorem lift (r : Except Failure α) : AlikeUnder R (Run.lift r) (Run.lift r) := by
  intro s t hst
  rw [lift_apply, lift_apply]
  exact ⟨rfl, hst⟩

theorem change {f g : RenderState → RenderState} (h : ∀ s t, R s t → R (f s) (g t)) :
    AlikeUnder R (Run.change f) (Run.change g) := fun s t hst => ⟨rfl, h s t hst⟩

end AlikeUnder

theorem untraced_annotate (frames : List Frame) (e : Failure) :
    (annotate frames e).untraced = e.untraced := by
  cases e with
  | run e trace => cases trace <;> rfl
  | _ => rfl

/-- Related states have the same variables, whatever elements are running, and they stay related as
elements write and bind. -/
structure Respected (job : Job) (R : RenderState → RenderState → Prop) : Prop where
  value {s t : RenderState} : R s t → s.value job = t.value job
  frames {s t : RenderState} (fs gs : List Frame) :
    R s t → R { s with frames := fs } { t with frames := gs }
  write {s t : RenderState} (text : String) : R s t → R (s.write text) (t.write text)
  setLocal {s t : RenderState} (name : String) (value : Option Model) :
    R s t → R (s.setLocal name value) (t.setLocal name value)
  setGlobal {s t : RenderState} (name : String) (value : Option Model) :
    R s t → R (s.setGlobal name value) (t.setGlobal name value)

namespace Respected

variable {job : Job} (hR : Respected job R)

include hR

theorem evaluate (f : Scope → Except EvalError α) :
    AlikeUnder R (Run.evaluate job f) (Run.evaluate job f) := by
  intro s t hst
  rw [evaluate_apply, evaluate_apply, hR.value hst]
  exact ⟨rfl, hst⟩

/-- Which element runs shows in the trace alone. -/
theorem framed (e f : Element) {m n : Run Unit} (h : AlikeUnder R m n) :
    AlikeUnder R (Run.framed e m) (Run.framed f n) := by
  intro s t hst
  unfold Run.framed
  rcases h.cases (hR.frames (⟨e, s.current⟩ :: s.frames) (⟨f, t.current⟩ :: t.frames) hst) with
    ⟨a, s', t', hm, hn, hstate⟩ | ⟨x, y, s', t', hm, hn, htrace, hstate⟩
  · rw [hm, hn]
    exact ⟨rfl, hR.frames _ _ hstate⟩
  · rw [hm, hn]
    refine ⟨congrArg Except.error ?_, hR.frames _ _ hstate⟩
    rw [untraced_annotate, untraced_annotate, htrace]

variable {onInclude onInclude' : Template → Run Unit}

theorem text (p q : Place) (content : String) :
    AlikeUnder R (runElement job onInclude (.text p content))
      (runElement job onInclude' (.text q content)) := by
  rw [runElement.eq_def, runElement.eq_def]
  exact hR.framed _ _ (.change fun s t hst => hR.write content hst)

theorem interpolation (p q : Place) (e : Expr) :
    AlikeUnder R (runElement job onInclude (.interpolation p e))
      (runElement job onInclude' (.interpolation q e)) := by
  rw [runElement.eq_def, runElement.eq_def]
  exact hR.framed _ _
    (.bind (hR.evaluate _) fun content => .change fun s t hst => hR.write content hst)

theorem assign (p q : Place) (scope : AssignScope) (name : String) (e : Expr) :
    AlikeUnder R (runElement job onInclude (.assign p scope name e))
      (runElement job onInclude' (.assign q scope name e)) := by
  rw [runElement.eq_def, runElement.eq_def]
  apply hR.framed
  apply AlikeUnder.bind (hR.evaluate _)
  intro m
  cases scope with
  | template => exact .change fun s t hst => hR.setLocal name (some m) hst
  | render => exact .change fun s t hst => hR.setGlobal name (some m) hst

theorem conditional (p q : Place) (c : Expr) {body body' : List Element}
    (hbody : AlikeUnder R (runAll job onInclude body) (runAll job onInclude' body')) :
    AlikeUnder R (runElement job onInclude (.conditional p c body none))
      (runElement job onInclude' (.conditional q c body' none)) := by
  rw [runElement.eq_def, runElement.eq_def]
  apply hR.framed
  apply AlikeUnder.bind (hR.evaluate _)
  intro holds
  cases holds with
  | true => exact hbody
  | false => exact .pure ()

theorem branches (p q : Place) (c : Expr) {body body' otherwise otherwise' : List Element}
    (hbody : AlikeUnder R (runAll job onInclude body) (runAll job onInclude' body'))
    (hotherwise :
      AlikeUnder R (runAll job onInclude otherwise) (runAll job onInclude' otherwise')) :
    AlikeUnder R (runElement job onInclude (.conditional p c body (some otherwise)))
      (runElement job onInclude' (.conditional q c body' (some otherwise'))) := by
  rw [runElement.eq_def, runElement.eq_def]
  apply hR.framed
  apply AlikeUnder.bind (hR.evaluate _)
  intro holds
  cases holds with
  | true => exact hbody
  | false => exact hotherwise

end Respected

/-- Elements one after the other run alike if each of them does. -/
theorem AlikeUnder.cons {job : Job} {onInclude onInclude' : Template → Run Unit} {e f : Element}
    {es fs : List Element}
    (h : AlikeUnder R (runElement job onInclude e) (runElement job onInclude' f))
    (hes : AlikeUnder R (runAll job onInclude es) (runAll job onInclude' fs)) :
    AlikeUnder R (runAll job onInclude (e :: es)) (runAll job onInclude' (f :: fs)) := by
  rw [runAll, runAll]
  exact .bind h fun _ => hes

end Run

/-! ## States that are alike -/

/-- The states differ at most in the running elements and in the template that is running, which
has the same name. -/
structure RenderState.Alike (s t : RenderState) : Prop where
  name : s.current.name = t.current.name
  output : s.output = t.output
  globals : s.globals = t.globals
  locals : s.locals = t.locals
  chain : s.chain = t.chain
  store : s.store = t.store

namespace RenderState.Alike

theorem refl (s : RenderState) : s.Alike s := ⟨rfl, rfl, rfl, rfl, rfl, rfl⟩

theorem symm {s t : RenderState} (h : s.Alike t) : t.Alike s :=
  ⟨h.name.symm, h.output.symm, h.globals.symm, h.locals.symm, h.chain.symm, h.store.symm⟩

theorem trans {s t u : RenderState} (h : s.Alike t) (h' : t.Alike u) : s.Alike u :=
  ⟨h.name.trans h'.name, h.output.trans h'.output, h.globals.trans h'.globals,
    h.locals.trans h'.locals, h.chain.trans h'.chain, h.store.trans h'.store⟩

/-- Variables have the same values. -/
theorem value {s t : RenderState} (h : s.Alike t) (job : Job) : s.value job = t.value job := by
  funext name
  simp only [RenderState.value, h.locals, h.globals]

end RenderState.Alike

namespace Run

variable {α : Type}

/-- From states that are alike, the steps end with the same outcome up to traces, in states that are
alike: `AlikeUnder RenderState.Alike`, written out. -/
def Alike (m n : Run α) : Prop :=
  ∀ s t : RenderState, s.Alike t →
    (m s).1.mapError Failure.untraced = (n t).1.mapError Failure.untraced ∧
      (m s).2.Alike (n t).2

namespace Alike

theorem symm {m n : Run α} (h : m.Alike n) : n.Alike m := fun s t hst =>
  let ⟨houtcome, hstate⟩ := h t s hst.symm
  ⟨houtcome.symm, hstate.symm⟩

theorem trans {l m n : Run α} (h : l.Alike m) (h' : m.Alike n) : l.Alike n := fun s t hst =>
  let ⟨houtcome, hstate⟩ := h s s (.refl s)
  let ⟨houtcome', hstate'⟩ := h' s t hst
  ⟨houtcome.trans houtcome', hstate.trans hstate'⟩

/-- An included template takes the place of the one that includes it. -/
theorem nested (template : Template) {m n : Run Unit} (h : m.Alike n) :
    (Run.nested template m).Alike (Run.nested template n) := by
  intro s t hst
  obtain ⟨houtcome, hstate⟩ := h
    { s with current := template, chain := template.name :: s.chain, locals := [] :: s.locals }
    { t with current := template, chain := template.name :: t.chain, locals := [] :: t.locals }
    { hst with
      name := rfl
      chain := congrArg (template.name :: ·) hst.chain
      locals := congrArg ([] :: ·) hst.locals }
  exact ⟨houtcome,
    { hstate with
      name := hst.name
      chain := congrArg List.tail hstate.chain
      locals := congrArg List.tail hstate.locals }⟩

end Alike

end Run

/-! ## Changes of the state -/

namespace RenderState.Alike

variable {s t : RenderState}

theorem write (h : s.Alike t) (text : String) : (s.write text).Alike (t.write text) :=
  { h with output := congrArg (· ++ text) h.output }

theorem setLocal (h : s.Alike t) (name : String) (value : Option Model) :
    (s.setLocal name value).Alike (t.setLocal name value) := by
  unfold RenderState.setLocal
  rw [← h.locals]
  split <;> exact { h with locals := rfl }

theorem setGlobal (h : s.Alike t) (name : String) (value : Option Model) :
    (s.setGlobal name value).Alike (t.setGlobal name value) :=
  { h with globals := congrArg (Bindings.set name value) h.globals }

end RenderState.Alike

/-- What states that are alike differ in, elements neither read nor write. -/
theorem respected_alike (job : Job) : Run.Respected job RenderState.Alike where
  value h := h.value job
  frames _ _ h := { h with }
  write text h := h.write text
  setLocal name value h := h.setLocal name value
  setGlobal name value h := h.setGlobal name value

/-! ## Inclusions -/

section

variable (job : Job)

theorem alike_fetch (name : String) (encoding : Option String) (parse ignoreMissing : Bool) :
    (fetch job name encoding parse ignoreMissing).Alike
      (fetch job name encoding parse ignoreMissing) := by
  intro s t hst
  simp only [fetch, hst.store]
  exact ⟨trivial, { hst with store := rfl }⟩

theorem untraced_includeFailure (name : String) {a b : Failure} (h : a.untraced = b.untraced) :
    (includeFailure name a).untraced = (includeFailure name b).untraced := by
  cases a <;> cases b <;> cases h <;> rfl

theorem alike_request (name full : String) (encoding : Option String)
    (parse ignoreMissing : Bool) :
    (request job name full encoding parse ignoreMissing).Alike
      (request job name full encoding parse ignoreMissing) := by
  intro s t hst
  unfold request
  have hfetch := alike_fetch job full encoding parse ignoreMissing
  rcases Run.AlikeUnder.cases hfetch hst with
    ⟨a, s', t', hm, hn, hstate⟩ | ⟨e, f, s', t', hm, hn, htrace, hstate⟩
  · rw [hm, hn]
    exact ⟨rfl, hstate⟩
  · rw [hm, hn]
    exact ⟨congrArg Except.error (untraced_includeFailure name htrace), hstate⟩

/-- Steps that run alike from all states that are alike make up sequences that do. -/
theorem sequential_alike : Run.Sequential job fun m => m.Alike m where
  pure := Run.AlikeUnder.pure
  bind := Run.AlikeUnder.bind
  evaluate := (respected_alike job).evaluate
  resolve _ _ := Run.AlikeUnder.lift _
  request := alike_request job
  -- of the template that is running only the name matters, which both states share
  named := by
    intro f hf s t hst
    rw [Run.bind_apply, Run.bind_apply, Run.get_apply, Run.get_apply]
    simp only [hst.name]
    exact hf t.current.name s t hst

/-- The target of an inclusion depends on the name of the template that is running. -/
theorem alike_inclusionTarget (i : Inclusion) :
    (inclusionTarget job i).Alike (inclusionTarget job i) :=
  (sequential_alike job).inclusionTarget i

end

/-! ## Elements -/

section

variable {job : Job} {onInclude : Template → Run Unit}

/-- What an inclusion does: it finds its target and runs it, if there is one. -/
def includeTarget (job : Job) (onInclude : Template → Run Unit) (i : Inclusion) : Run Unit := do
  match ← inclusionTarget job i with
  | some template => onInclude template
  | none => pure ()

theorem runElement_inclusion (p : Place) (i : Inclusion) :
    runElement job onInclude (.inclusion p i) =
      Run.framed (.inclusion p i) (includeTarget job onInclude i) := by
  rw [runElement.eq_def]
  rfl

theorem alike_includeTarget (h : ∀ template, (onInclude template).Alike (onInclude template))
    (i : Inclusion) : (includeTarget job onInclude i).Alike (includeTarget job onInclude i) := by
  apply Run.AlikeUnder.bind (alike_inclusionTarget job i)
  intro found
  cases found with
  | none => exact Run.AlikeUnder.pure ()
  | some template => exact h template

theorem alike_inclusion (h : ∀ template, (onInclude template).Alike (onInclude template))
    (p q : Place) (i : Inclusion) :
    (runElement job onInclude (.inclusion p i)).Alike
      (runElement job onInclude (.inclusion q i)) := by
  rw [runElement_inclusion, runElement_inclusion]
  exact (respected_alike job).framed _ _ (alike_includeTarget h i)

mutual

theorem alike_unplaced (h : ∀ template, (onInclude template).Alike (onInclude template))
    (e : Element) : (runElement job onInclude e).Alike (runElement job onInclude e.unplaced) := by
  match e with
  | .text p s => exact (respected_alike job).text _ _ s
  | .interpolation p v => exact (respected_alike job).interpolation _ _ v
  | .assign p scope name v => exact (respected_alike job).assign _ _ scope name v
  | .inclusion p i => exact alike_inclusion h _ _ i
  | .conditional p c body none =>
    exact (respected_alike job).conditional _ _ c (alike_unplacedAll h body)
  | .conditional p c body (some otherwise) =>
    exact (respected_alike job).branches _ _ c (alike_unplacedAll h body)
      (alike_unplacedAll h otherwise)

/-- Elements run as they do without their places. -/
theorem alike_unplacedAll (h : ∀ template, (onInclude template).Alike (onInclude template))
    (es : List Element) :
    (runAll job onInclude es).Alike (runAll job onInclude (Element.unplacedAll es)) := by
  match es with
  | [] => exact Run.AlikeUnder.pure ()
  | e :: es => exact Run.AlikeUnder.cons (alike_unplaced h e) (alike_unplacedAll h es)

end

/-- A text that runs is written. -/
theorem runElement_text (p : Place) (text : String) (s : RenderState) :
    runElement job onInclude (.text p text) s = (.ok (), s.write text) := by
  rw [runElement.eq_def]
  rfl

/-- Two texts in a row write what one text writes that joins them. -/
theorem runAll_texts (p q : Place) (a b : String) (es : List Element) :
    runAll job onInclude (.text p a :: .text q b :: es) =
      runAll job onInclude (.text p (a ++ b) :: es) := by
  funext s
  simp only [runAll, Run.bind_apply, runElement_text, RenderState.write, String.append_assoc]

theorem runAll_attach (e : Element) (es : List Element) :
    runAll job onInclude (Element.attach e es) = runAll job onInclude (e :: es) := by
  rcases Element.attach_cases e es with ⟨p, q, a, b, fs, rfl, rfl, h⟩ | ⟨h, -⟩
  · rw [h, runAll_texts]
  · rw [h]

mutual

theorem alike_joined (h : ∀ template, (onInclude template).Alike (onInclude template))
    (e : Element) : (runElement job onInclude e).Alike (runElement job onInclude e.joined) := by
  match e with
  | .text p s => exact (respected_alike job).text _ _ s
  | .interpolation p v => exact (respected_alike job).interpolation _ _ v
  | .assign p scope name v => exact (respected_alike job).assign _ _ scope name v
  | .inclusion p i => exact alike_inclusion h _ _ i
  | .conditional p c body none =>
    exact (respected_alike job).conditional _ _ c (alike_joinedAll h body)
  | .conditional p c body (some otherwise) =>
    exact (respected_alike job).branches _ _ c (alike_joinedAll h body)
      (alike_joinedAll h otherwise)

/-- Elements run as they do with neighbouring texts joined. -/
theorem alike_joinedAll (h : ∀ template, (onInclude template).Alike (onInclude template))
    (es : List Element) :
    (runAll job onInclude es).Alike (runAll job onInclude (Element.joinedAll es)) := by
  match es with
  | [] => exact Run.AlikeUnder.pure ()
  | e :: es =>
    -- to attach the joined first element changes how texts are written, not what
    rw [Element.joinedAll, runAll_attach]
    exact Run.AlikeUnder.cons (alike_joined h e) (alike_joinedAll h es)

end

/-- An included template runs like itself at every depth. -/
theorem alike_enter (budget : Nat) (template : Template) :
    (enter job budget template).Alike (enter job budget template) := by
  induction budget generalizing template with
  | zero =>
    intro s t hst
    simp only [enter, refuse, hst.chain]
    exact ⟨trivial, hst⟩
  -- an included template runs as it does without places, and so like itself
  | succ budget ih =>
    have hroot : (runAll job (enter job budget) template.root).Alike _ :=
      alike_unplacedAll ih template.root
    exact .nested template (hroot.trans hroot.symm)

/-- Elements that agree with the others once neighbouring texts are joined run alike. -/
theorem alike_visit {es fs : List Element}
    (h : Element.agreesAll fs (Element.joinedAll es) = true) :
    (visit job es).Alike (visit job fs) := by
  intro s t hst
  -- states that are alike have the same levels of nesting left
  have hbudget : s.budget job = t.budget job := by
    rw [RenderState.budget, RenderState.budget, hst.chain]
  have henter : ∀ template, (enter job (s.budget job) template).Alike _ := alike_enter _
  -- from the elements to the joined ones, to those without places, and on to the others
  have hjoined : (runAll job (enter job (s.budget job)) es).Alike _ := alike_joinedAll henter es
  have hunplaced : (runAll job (enter job (s.budget job)) (Element.joinedAll es)).Alike _ :=
    alike_unplacedAll henter _
  have hagrees : (runAll job (enter job (s.budget job)) fs).Alike _ := alike_unplacedAll henter fs
  rw [(Element.agreesAll_iff _ _).mp h] at hagrees
  have hrun := hjoined.trans (hunplaced.trans hagrees.symm) s t hst
  unfold visit
  rw [← hbudget]
  exact hrun

end

end Stencil

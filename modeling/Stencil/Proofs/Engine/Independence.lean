import Stencil.Engine
import Stencil.Proofs.Render.Composition
import Stencil.Proofs.Store.Memory

/-!
# Calls on one engine are independent

An engine keeps from one call to the next what it has loaded. A render on it fills that memory, even
one that fails midway, through inclusions at every depth. No later call can tell: as long as the
sources stay what they are, what is remembered is what they give, and a step of a render does the same
whichever part of that is remembered.

## Main definitions

* `Twins` relates states of a render that differ in what is remembered alone.
* `Run.Blind` is a step that does the same from such states.
* `Call` is a call on an engine, `Engine.replies` the replies to calls one after the other.

## Main results

* `hereditary_blind`: all that runs is blind to what is remembered.
* `replies_independent`: each call has the reply that it has on an engine of its own.
-/

namespace Stencil

/-! ## Steps that do not see what is remembered -/

section

variable (l : Loader) (defaultEncoding : String)

/-- The states differ at most in what is remembered of the same sources. -/
structure Twins (s t : RenderState) : Prop where
  current : s.current = t.current
  output : s.output = t.output
  globals : s.globals = t.globals
  locals : s.locals = t.locals
  frames : s.frames = t.frames
  chain : s.chain = t.chain
  mirrors : s.store.Mirrors l defaultEncoding
  mirrors' : t.store.Mirrors l defaultEncoding

/-- From states that differ in what is remembered alone, the step has the same outcome, and leads to
states that differ in this alone. -/
def Run.Blind {α : Type} (m : Run α) : Prop :=
  ∀ s t, Twins l defaultEncoding s t →
    (m s).1 = (m t).1 ∧ Twins l defaultEncoding (m s).2 (m t).2

end

namespace Twins

variable {l : Loader} {defaultEncoding : String} {s t : RenderState}

/-- A variable has the same value, whatever is remembered of the sources. -/
theorem value (h : Twins l defaultEncoding s t) (job : Job) : s.value job = t.value job := by
  funext name
  rw [RenderState.value, RenderState.value, h.locals, h.globals]

theorem setLocal (h : Twins l defaultEncoding s t) (name : String) (value : Option Model) :
    Twins l defaultEncoding (s.setLocal name value) (t.setLocal name value) := by
  unfold RenderState.setLocal
  rw [h.locals]
  split <;> exact { h with locals := rfl }

end Twins

namespace Run

variable {l : Loader} {defaultEncoding : String} {α β : Type}

theorem blind_pure (a : α) : Blind l defaultEncoding (pure a : Run α) := fun _ _ h => ⟨rfl, h⟩

theorem blind_bind {m : Run α} {f : α → Run β} (hm : Blind l defaultEncoding m)
    (hf : ∀ a, Blind l defaultEncoding (f a)) : Blind l defaultEncoding (m >>= f) := by
  intro s t h
  obtain ⟨houtcome, hstate⟩ := hm s t h
  rw [bind_apply, bind_apply]
  generalize m s = r at houtcome hstate
  generalize m t = r' at houtcome hstate
  rcases r with ⟨r, s'⟩
  rcases r' with ⟨r', t'⟩
  cases houtcome
  cases r with
  | ok a => exact hf a s' t' hstate
  | error x => exact ⟨rfl, hstate⟩

theorem blind_evaluate (job : Job) (f : Scope → Except EvalError α) :
    Blind l defaultEncoding (evaluate job f) := by
  intro s t h
  rw [evaluate_apply, evaluate_apply, h.value job]
  exact ⟨rfl, h⟩

theorem blind_resolve (base name : String) :
    Blind l defaultEncoding (lift (resolveName base name)) := by
  intro s t h
  rw [lift_apply, lift_apply]
  exact ⟨rfl, h⟩

/-- The answer to a request is that of the sources, wherever it is taken from. -/
theorem blind_request (job : Job) (name full : String) (encoding : Option String)
    (parse ignoreMissing : Bool) :
    Blind l defaultEncoding (request job name full encoding parse ignoreMissing) := by
  intro s t h
  have hasked := h.mirrors.ask
    ⟨full, some (encoding.getD job.settings.defaultEncoding), parse, ignoreMissing⟩
  have hasked' := h.mirrors'.ask
    ⟨full, some (encoding.getD job.settings.defaultEncoding), parse, ignoreMissing⟩
  unfold request fetch
  unfold Store.ask at hasked hasked'
  dsimp only at hasked hasked' ⊢
  generalize s.store.get _ _ _ _ = r at hasked ⊢
  generalize t.store.get _ _ _ _ = r' at hasked' ⊢
  rcases r with ⟨a, c⟩
  rcases r' with ⟨a', c'⟩
  obtain ⟨hanswer, hmirrors⟩ := hasked
  obtain ⟨hanswer', hmirrors'⟩ := hasked'
  -- both answers are the one of the sources
  cases hanswer.trans hanswer'.symm
  cases a <;> exact ⟨rfl, { h with mirrors := hmirrors, mirrors' := hmirrors' }⟩

theorem blind_framed (e : Element) {body : Run Unit} (hbody : Blind l defaultEncoding body) :
    Blind l defaultEncoding (framed e body) := by
  intro s t h
  obtain ⟨houtcome, hstate⟩ := hbody { s with frames := ⟨e, s.current⟩ :: s.frames }
    { t with frames := ⟨e, t.current⟩ :: t.frames }
    { h with frames := by rw [h.current, h.frames] }
  unfold framed
  generalize body { s with frames := ⟨e, s.current⟩ :: s.frames } = r at houtcome hstate ⊢
  generalize body { t with frames := ⟨e, t.current⟩ :: t.frames } = r' at houtcome hstate ⊢
  rcases r with ⟨x, s'⟩
  rcases r' with ⟨x', t'⟩
  cases houtcome
  -- the trace is taken from the same stack
  have hleft : Twins l defaultEncoding { s' with frames := s'.frames.tail }
      { t' with frames := t'.frames.tail } :=
    { hstate with frames := congrArg List.tail hstate.frames }
  cases x with
  | ok _ => exact ⟨rfl, hleft⟩
  | error x => exact ⟨congrArg (fun fs => Except.error (annotate fs x)) hstate.frames, hleft⟩

theorem blind_nested (template : Template) {body : Run Unit}
    (hbody : Blind l defaultEncoding body) : Blind l defaultEncoding (nested template body) := by
  intro s t h
  obtain ⟨houtcome, hstate⟩ := hbody
    { s with current := template, chain := template.name :: s.chain, locals := [] :: s.locals }
    { t with current := template, chain := template.name :: t.chain, locals := [] :: t.locals }
    { h with
      current := rfl
      chain := congrArg (template.name :: ·) h.chain
      locals := congrArg ([] :: ·) h.locals }
  exact ⟨houtcome, { hstate with
    current := h.current
    chain := congrArg List.tail hstate.chain
    locals := congrArg List.tail hstate.locals }⟩

end Run

/-- **What runs is blind to what is remembered.** -/
theorem hereditary_blind (l : Loader) (defaultEncoding : String) (job : Job) :
    Run.Hereditary job (Run.Blind l defaultEncoding) where
  pure := Run.blind_pure
  bind := Run.blind_bind
  evaluate := Run.blind_evaluate job
  resolve := Run.blind_resolve
  request := Run.blind_request job
  named := by
    intro f hf s t h
    rw [Run.bind_apply, Run.bind_apply, Run.get_apply, Run.get_apply]
    simp only [h.current]
    exact hf t.current.name s t h
  write text s t h := ⟨rfl, { h with output := congrArg (· ++ text) h.output }⟩
  setLocal name value s t h := ⟨rfl, h.setLocal name value⟩
  setGlobal name value s t h :=
    ⟨rfl, { h with globals := congrArg (Bindings.set name value) h.globals }⟩
  framed := Run.blind_framed
  nested := Run.blind_nested
  refuse template s t h := by
    unfold refuse
    rw [h.chain]
    exact ⟨rfl, h⟩
  budgeted := by
    intro f hf s t h
    have hbudget : s.budget job = t.budget job := by
      rw [RenderState.budget, RenderState.budget, h.chain]
    dsimp only
    rw [hbudget]
    exact hf (t.budget job) s t h

/-- A render has the same outcome and the same output, whatever is remembered of the sources. -/
theorem process_blind (job : Job) (main : Template) {l : Loader} {defaultEncoding : String}
    {a b : Store} (ha : a.Mirrors l defaultEncoding) (hb : b.Mirrors l defaultEncoding) :
    (process job main a).1 = (process job main b).1 ∧
      Twins l defaultEncoding (process job main a).2 (process job main b).2 :=
  (hereditary_blind l defaultEncoding job).visit main.root (.initial main a) (.initial main b)
    ⟨rfl, rfl, rfl, rfl, rfl, rfl, ha, hb⟩

/-! ## Calls -/

/-- A call on an engine. -/
inductive Call
  | render (name : String) (data : List (String × Value))
  | renderText (source name : String) (data : List (String × Value))
  | template (name : String) (encoding : Option String) (parse : Bool)
  | clear

/-- The reply to a call. -/
inductive Reply
  | output (r : Except Failure String)
  | template (r : Except Failure Template)
  | cleared

namespace Engine

/-- A call on an engine: the reply, and the engine afterwards. -/
def call (e : Engine) : Call → Reply × Engine
  | .render name data => (e.render name data).map .output id
  | .renderText source name data => (e.renderText source name data).map .output id
  | .template name encoding parse => (e.template name encoding parse).map .template id
  | .clear => (.cleared, { e with store := e.store.clear })

/-- The replies to calls, one after the other. -/
def replies : Engine → List Call → List Reply
  | _, [] => []
  | e, c :: calls => (e.call c).1 :: (e.call c).2.replies calls

/-- An engine with these settings over these sources, whatever it has loaded of them. -/
def Mirrors (settings : Settings) (l : Loader) (e : Engine) : Prop :=
  e.settings = settings ∧ e.store.Mirrors l settings.defaultEncoding

/-- What is done with engines over the same sources has the same result, whatever they have loaded,
and leaves them so. -/
def Agrees (settings : Settings) (l : Loader) {α : Type} (f : Engine → α × Engine) : Prop :=
  ∀ d e, d.Mirrors settings l → e.Mirrors settings l →
    (f d).1 = (f e).1 ∧ (f d).2.Mirrors settings l ∧ (f e).2.Mirrors settings l

section

variable {settings : Settings} {l : Loader}

theorem mirrors_new (settings : Settings) (l : Loader) : (new settings l).Mirrors settings l :=
  ⟨rfl, Store.mirrors_new l settings.defaultEncoding⟩

theorem Agrees.map {α β : Type} {f : Engine → α × Engine} (h : Agrees settings l f) (g : α → β) :
    Agrees settings l fun e => (f e).map g id := by
  intro d e hd he
  obtain ⟨hresult, hmirrors⟩ := h d e hd he
  exact ⟨congrArg g hresult, hmirrors⟩

theorem agrees_template (name : String) (encoding : Option String) (parse : Bool) :
    Agrees settings l (template · name encoding parse) := by
  rintro d e ⟨hd, ha⟩ ⟨he, hb⟩
  have hasked := ha.ask ⟨name, encoding, parse, false⟩
  have hasked' := hb.ask ⟨name, encoding, parse, false⟩
  unfold Store.ask at hasked hasked'
  unfold template
  dsimp only at hasked hasked' ⊢
  rw [hd, he]
  generalize d.store.get name encoding parse false = r at hasked ⊢
  generalize e.store.get name encoding parse false = r' at hasked' ⊢
  rcases r with ⟨x, a⟩
  rcases r' with ⟨x', b⟩
  obtain ⟨hanswer, ha'⟩ := hasked
  obtain ⟨hanswer', hb'⟩ := hasked'
  cases hanswer.trans hanswer'.symm
  rcases x with _ | _ | _ <;> exact ⟨rfl, ⟨rfl, ha'⟩, ⟨rfl, hb'⟩⟩

theorem agrees_run (t : Template) (data : List (String × Value)) :
    Agrees settings l (run · t data) := by
  rintro d e ⟨hd, ha⟩ ⟨he, hb⟩
  obtain ⟨houtcome, hstate⟩ := process_blind ⟨t.name, settings, data⟩ t ha hb
  unfold run
  dsimp only
  rw [hd, he]
  generalize process ⟨t.name, settings, data⟩ t d.store = r at houtcome hstate ⊢
  generalize process ⟨t.name, settings, data⟩ t e.store = r' at houtcome hstate ⊢
  rcases r with ⟨x, s⟩
  rcases r' with ⟨x', s'⟩
  cases houtcome
  cases x with
  | ok _ =>
    exact ⟨congrArg Except.ok hstate.output, ⟨rfl, hstate.mirrors⟩, ⟨rfl, hstate.mirrors'⟩⟩
  | error x => exact ⟨rfl, ⟨rfl, hstate.mirrors⟩, ⟨rfl, hstate.mirrors'⟩⟩

theorem agrees_render (name : String) (data : List (String × Value)) :
    Agrees settings l (render · name data) := by
  intro d e hd he
  obtain ⟨hresult, hd', he'⟩ := agrees_template name none true d e hd he
  unfold render
  dsimp only at hresult hd' he' ⊢
  generalize d.template name none true = r at hresult hd' ⊢
  generalize e.template name none true = r' at hresult he' ⊢
  rcases r with ⟨r, d'⟩
  rcases r' with ⟨r', e'⟩
  cases hresult
  cases r with
  | error x => exact ⟨rfl, hd', he'⟩
  | ok t => exact agrees_run t data d' e' hd' he'

theorem agrees_renderText (source name : String) (data : List (String × Value)) :
    Agrees settings l (renderText · source name data) := by
  intro d e hd he
  unfold renderText
  cases Template.ofText source name "" none with
  | error x => exact ⟨rfl, hd, he⟩
  | ok t => exact agrees_run t data d e hd he

theorem agrees_call (c : Call) : Agrees settings l (call · c) := by
  cases c with
  | render name data => exact (agrees_render name data).map Reply.output
  | renderText source name data => exact (agrees_renderText source name data).map Reply.output
  | template name encoding parse => exact (agrees_template name encoding parse).map Reply.template
  | clear => exact fun d e hd he => ⟨rfl, ⟨hd.1, hd.2.clear⟩, he.1, he.2.clear⟩

end

end Engine

/-- **Calls on one engine are independent.** Whatever has been rendered, loaded or forgotten before,
with success or not, each call has the reply that it has alone on an engine which has loaded nothing:
the same output, the same template, or the same failure, with its trace. -/
theorem replies_independent (settings : Settings) (l : Loader) (calls : List Call) :
    (Engine.new settings l).replies calls =
      calls.map fun c => ((Engine.new settings l).call c).1 := by
  -- the engine that has answered the first calls is no longer new, but mirrors its sources
  suffices h : ∀ e : Engine, e.Mirrors settings l →
      e.replies calls = calls.map fun c => ((Engine.new settings l).call c).1 from
    h _ (Engine.mirrors_new settings l)
  induction calls with
  | nil => exact fun _ _ => rfl
  | cons c calls ih =>
    intro e he
    obtain ⟨hreply, hafter, -⟩ := Engine.agrees_call c e _ he (Engine.mirrors_new settings l)
    rw [Engine.replies, List.map_cons, hreply, ih _ hafter]

end Stencil

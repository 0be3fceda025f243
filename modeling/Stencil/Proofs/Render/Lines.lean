import Stencil.Engine
import Stencil.Proofs.Render.Reading
import Stencil.Proofs.Render.Trace
import Stencil.Proofs.Render.Verbatim
import Stencil.Proofs.Template.Lines
import Stencil.Proofs.Template.RoundTrip

/-!
# The lines of reports

A report of a failing render shows an element on each of its lines. All elements that a render can come
to have been read from a source, or are a text that stands for a whole source: the main template is made
from a source, and the store has made everything else that it gives from sources, too. So every element on
the path to a failure is shown on one line, whatever its texts and literals are, and so is the place where
it stands, whatever the name of its template is.

## Main definitions

* `Template.Sourced` are the templates that are made from sources.
* `Store.Sourced` are the stores that give no other templates.
* `Failure.Lined` says that a trace consists of lines.

## Main results

* `Store.Sourced.after`: whatever is done with a store, it gives templates that are made from sources.
* `ExecutionPath.sourced`: the elements of a path stand in templates that are made from sources.
* `traces_are_lines`: the trace of a template has a line for each element, and the traces of failures
  consist of lines.
-/

namespace Stencil

/-! ## Templates that are made from sources -/

/-- The template is made from a source, which is parsed or taken as it stands. -/
inductive Template.Sourced : Template → Prop
  | parsed {source name sourceName : String} {encoding : Option String} {t : Template}
      (h : ofText source name sourceName encoding = .ok t) : Sourced t
  | raw (source name sourceName : String) (encoding : Option String) :
      Sourced (raw source name sourceName encoding)

/-- The branch that a well-formed conditional selects is well formed. -/
theorem allWellFormed_selected {p : Place} {condition : Expr} {body : List Element}
    {otherwise : Option (List Element)}
    (h : (Element.conditional p condition body otherwise).WellFormed) (holds : Bool) :
    Element.AllWellFormed (selected holds body otherwise) := by
  cases otherwise with
  | none =>
    cases holds with
    | true => exact h.2
    | false => trivial
  | some branch =>
    cases holds with
    | true => exact h.2.1
    | false => exact h.2.2

namespace Template.Sourced

variable {t : Template}

/-- What is loaded is made from a source. -/
theorem of_load {l : Loader} {r : Request} (h : load l r = .ok (some t)) : t.Sourced := by
  obtain ⟨label, text, htemplate⟩ := exists_templateOf_of_load h
  unfold templateOf at htemplate
  split at htemplate
  · split at htemplate
    · cases htemplate
    · exact .parsed htemplate
  · cases htemplate
    exact .raw _ _ _ _

/-- What stands in such a template is a text or well formed, at any depth. -/
theorem text_or_wellFormed (h : t.Sourced) {e : Element} (he : t.Contains e) :
    e.isText = true ∨ e.WellFormed := by
  induction he with
  | @root e hroot =>
    cases h with
    | parsed hparsed =>
      have hwellFormed := wellFormed_of_parseTemplate (root_of_ofText hparsed)
      exact .inr (Element.wellFormed_of_mem hwellFormed hroot)
    | raw source =>
      rw [root_raw, Element.verbatim] at hroot
      split at hroot
      · cases hroot
      · rw [List.mem_singleton.mp hroot]
        exact .inl rfl
  | @branch p condition body otherwise e holds _ hselected ih =>
    -- the conditional around it is no text
    have hparent := ih.resolve_left Bool.false_ne_true
    exact .inr (Element.wellFormed_of_mem (allWellFormed_selected hparent holds) hselected)

theorem oneLine_trace (h : t.Sourced) {e : Element} (he : t.Contains e) : OneLine e.trace :=
  Element.oneLine_trace (h.text_or_wellFormed he)

end Template.Sourced

/-! ## Stores that give such templates -/

namespace Store

/-- All templates that the store gives are made from sources. -/
def Sourced (s : Store) : Prop := ∀ t, s.Gives t → t.Sourced

variable {s : Store}

theorem sourced_new (l : Loader) (defaultEncoding : String) : (new l defaultEncoding).Sourced := by
  rintro t ⟨r, hremembered | hload⟩
  · cases hremembered
  · exact .of_load hload

/-- An operation adds nothing to what the store gives but what is made from sources. -/
theorem Sourced.step (h : s.Sourced) (o : Operation) : (s.step o).Sourced := by
  cases o with
  | put name content =>
    rintro t ⟨r, hremembered | hload⟩
    · exact h t ⟨r, .inl hremembered⟩
    · exact .of_load hload
  | get q => exact fun t ht => h t (gives_of_ask ht)
  | clear =>
    rintro t ⟨r, hremembered | hload⟩
    · cases hremembered
    · exact .of_load hload

/-- **Whatever is done with a store, it gives templates that are made from sources.** -/
theorem Sourced.after (h : s.Sourced) (ops : List Operation) : (s.after ops).Sourced := by
  induction ops generalizing s with
  | nil => exact h
  | cons o ops ih => exact ih (h.step o)

end Store

/-! ## The elements on a path -/

section

variable {job : Job} {main : Template} {store : Store}

/-- What an inclusion finds its store gives. -/
theorem gives_of_inclusionTarget {i : Inclusion} {s : RenderState} {template : Template}
    (h : (inclusionTarget job i s).1 = .ok (some template)) : s.store.Gives template := by
  rcases i.asks_or_unasked job s with ⟨d, hasks⟩ | ⟨x, hunasked⟩
  · rw [hasks.inclusionTarget_ask] at h
    exact Store.gives_of_answer (mapError_eq_ok.mp h)
  · rw [hunasked.inclusionTarget_eq] at h
    cases h

mutual

/-- Where the main template is made from a source and the store gives no other templates, the elements
that begin to be visited and those around them stand in templates that are made from sources. -/
theorem Begun.sourced {fs : List Frame} {template : Template} {es : List Element}
    {s : RenderState} {k : List Task} (h : Begun job main store fs template es s k)
    (hmain : main.Sourced) (hstore : store.Sourced) :
    template.Sourced ∧ ∀ g ∈ fs, g.template.Sourced := by
  cases h with
  | main => exact ⟨hmain, nofun⟩
  | branch hpath =>
    obtain ⟨htemplate, houter⟩ := hpath.sourced hmain hstore
    exact ⟨htemplate, List.forall_mem_cons.mpr ⟨htemplate, houter⟩⟩
  | included hpath he htarget =>
    -- the store in which the template was found is the first one, after questions
    obtain ⟨questions, hquestions⟩ := hpath.reached.store_after
    have hgives := gives_of_inclusionTarget (congrArg Prod.fst htarget)
    dsimp only at hquestions
    rw [hquestions] at hgives
    exact ⟨hstore.after _ _ hgives,
      List.forall_mem_cons.mpr (hpath.sourced hmain hstore)⟩
termination_by 2 * fs.length

/-- **The elements of a path stand in templates that are made from sources.** -/
theorem ExecutionPath.sourced {f : Frame} {fs : List Frame} {s : RenderState} {k : List Task}
    (h : ExecutionPath job main store f fs s k) (hmain : main.Sourced) (hstore : store.Sourced) :
    f.template.Sourced ∧ ∀ g ∈ fs, g.template.Sourced := by
  cases h with
  | element hlist => exact hlist.sourced hmain hstore
termination_by 2 * fs.length + 1

end

/-! ## Traces of failures -/

/-- A place is on one line, whatever the name of its template is. -/
theorem Frame.oneLine_location (f : Frame) : OneLine f.location := by
  by_cases hname : f.template.name = "" <;> by_cases hplace : f.element.place.line = 0 <;>
    simp +decide [location, hname, hplace]

theorem Frame.oneLine_traceLine {f : Frame} {label : String} (hlabel : OneLine label)
    (h : OneLine f.element.trace) : OneLine (f.traceLine label) := by
  simp +decide [traceLine, hlabel, h, f.oneLine_location]

/-- If the failure has a trace, then each line of it is one. -/
def Failure.Lined (x : Failure) : Prop :=
  ∀ e lines, x = .run e (some lines) → ∀ line ∈ lines, OneLine line

/-- **A render of templates that are made from sources fails with a trace of lines.** -/
theorem lined_of_process (hmain : main.Sourced) (hstore : store.Sourced) {x : Failure}
    (h : (process job main store).1 = .error x) : x.Lined := by
  rintro e lines rfl
  obtain ⟨f, fs, s, k, hpath, -, htrace⟩ := trace_of_process h
  -- each line shows an element of the path, which stands in a template that is made from a source
  obtain ⟨hinner, houter⟩ := hpath.sourced hmain hstore
  obtain ⟨hfailed, hreached⟩ := List.forall_mem_cons.mp hpath.contains_all
  cases htrace
  refine List.forall_mem_cons.mpr ⟨?_, List.forall_mem_map.mpr fun g hg => ?_⟩
  · exact Frame.oneLine_traceLine (by decide) (hinner.oneLine_trace hfailed)
  · exact Frame.oneLine_traceLine (by decide) ((houter g hg).oneLine_trace (hreached g hg))

end

theorem Failure.OfLoading.lined {x : Failure} (h : x.OfLoading) : x.Lined := by
  rintro e lines rfl
  -- what loading raises has no trace yet
  cases h with
  | folding h => cases h

namespace Engine

variable {e e' : Engine} {t : Template} {name source : String} {data : List (String × Value)}
  {x : Failure}

/-- An engine loads a template that is made from a source, and its store goes on to give no others. -/
theorem sourced_of_template {encoding : Option String} {parse : Bool} (he : e.store.Sourced)
    (h : e.template name encoding parse = (.ok t, e')) : t.Sourced ∧ e'.store.Sourced := by
  unfold template at h
  split at h
  · cases h
  · next store hget =>
    cases h
    have hask : e.store.ask ⟨name, encoding, parse, false⟩ = (.ok (some t), store) := hget
    refine ⟨he t (Store.gives_of_answer (congrArg Prod.fst hask)), ?_⟩
    have hstep := he.step (.get ⟨name, encoding, parse, false⟩)
    rwa [Store.step, hask] at hstep
  · cases h

theorem ofLoading_of_template {encoding : Option String} {parse : Bool}
    (h : e.template name encoding parse = (.error x, e')) : x.OfLoading := by
  unfold template at h
  split at h
  · next hget =>
    cases h
    exact Store.get_error (congrArg Prod.fst hget)
  · cases h
  · cases h
    exact .load _

theorem lined_of_run (ht : t.Sourced) (he : e.store.Sourced)
    (h : (e.run t data).1 = .error x) : x.Lined := by
  apply lined_of_process ht he
  unfold run at h
  split at h
  · cases h
  · next hprocess =>
    cases h
    exact congrArg Prod.fst hprocess

theorem lined_of_render (he : e.store.Sourced) (h : (e.render name data).1 = .error x) :
    x.Lined := by
  unfold render at h
  split at h
  · next htemplate =>
    cases h
    exact (ofLoading_of_template htemplate).lined
  · next htemplate =>
    obtain ⟨ht, hstore⟩ := sourced_of_template he htemplate
    exact lined_of_run ht hstore h

theorem lined_of_renderText (he : e.store.Sourced)
    (h : (e.renderText source name data).1 = .error x) : x.Lined := by
  unfold renderText at h
  split at h
  · next hparse =>
    cases h
    rintro error lines rfl
    -- parsing fails with an issue, or where an attribute is folded
    rcases bind_eq_error.mp hparse with hparse | ⟨root, -, hparse⟩
    · rcases parseTemplate_error hparse with ⟨issue, herror⟩ | hfolding
      · cases herror
      · cases hfolding
    · cases hparse
  · next hparse => exact lined_of_run (.parsed hparse) he h

end Engine

/-- **A trace has one line for each element.** The trace of a template that is parsed from a text, under
any name, has one line break less than the template has elements, and its lines are the traces of these in
order; in none of them is there a control character below the blank.

Nor is there one in a line of the trace with which a render fails, whatever has been done with the engine
before: whether it renders a template by its name, a text, or any other template that is made from a
source. This holds whatever the sources, the data, and the names of templates are. -/
theorem traces_are_lines (settings : Settings) (loader : Loader) (defaultEncoding : String)
    (ops : List Operation) :
    (∀ source name sourceName encoding t,
      Template.ofText source name sourceName encoding = .ok t →
        t.trace.toList.count '\n' = t.root.length - 1 ∧
          (t.root ≠ [] → t.trace.toList.splitOn '\n' = t.root.map fun e => e.trace.toList) ∧
          ∀ e ∈ t.root, OneLine e.trace) ∧
      let engine : Engine := ⟨settings, (Store.new loader defaultEncoding).after ops⟩
      (∀ name data x, (engine.render name data).1 = .error x → x.Lined) ∧
        (∀ source name data x, (engine.renderText source name data).1 = .error x → x.Lined) ∧
        ∀ job main x, main.Sourced → (process job main engine.store).1 = .error x → x.Lined := by
  have hstore := (Store.sourced_new loader defaultEncoding).after ops
  refine ⟨fun source name sourceName encoding t h => ?_, ?_, ?_, ?_⟩
  · have hlines : ∀ e ∈ t.root, OneLine e.trace := fun e he =>
      (Template.Sourced.parsed h).oneLine_trace (.root he)
    obtain ⟨hcount, hsplit⟩ := Template.lines_of_trace hlines
    exact ⟨hcount, hsplit, hlines⟩
  · exact fun name data x h => Engine.lined_of_render hstore h
  · exact fun source name data x h => Engine.lined_of_renderText hstore h
  · exact fun job main x hmain h => lined_of_process hmain hstore h

/-- A text with line breaks in front of a tag, between its parts, and in its literal. -/
def brokenText : String := "a\n$\x7bx +\n\"\n\"\x7d"

/-- The template that it is parsed to, which has a line break in its name. -/
def brokenTemplate : Template :=
  ⟨"b\n", [.text ⟨1, 1⟩ "a\n", .interpolation ⟨2, 1⟩ (.binary .add (.var "x") (.str "\n"))],
    "b\n", none, true⟩

/-- What a render of it fails with. -/
def brokenFailure : Failure :=
  .run (.value (.undefined "x"))
    (some ["- Failed at: $\x7bx + \"\\n\"\x7d [in template \"b\\n\" at line 2, column 1]"])

/-- Line breaks in a text, in a tag, in a literal and in a name leave a trace its lines. -/
theorem traces_of_broken_text :
    Template.ofText brokenText "b\n" "" none = .ok brokenTemplate ∧
      brokenTemplate.trace.toList.splitOn '\n' =
        brokenTemplate.root.map (fun e => e.trace.toList) ∧
      ((Engine.new .defaults .empty).renderText brokenText "b\n" []).1 = .error brokenFailure ∧
      brokenFailure.Lined := by
  obtain ⟨htraces, -, hrender, -⟩ := traces_are_lines .defaults .empty "utf-8" []
  have hparsed : Template.ofText brokenText "b\n" "" none = .ok brokenTemplate := by
    with_unfolding_all rfl
  have hfails :
      ((Engine.new .defaults .empty).renderText brokenText "b\n" []).1 = .error brokenFailure := by
    rw [Engine.renderText, hparsed]
    rfl
  obtain ⟨-, hsplit, -⟩ := htraces brokenText "b\n" "" none brokenTemplate hparsed
  exact ⟨hparsed, hsplit (List.cons_ne_nil _ _), hfails,
    hrender brokenText "b\n" [] brokenFailure hfails⟩

end Stencil

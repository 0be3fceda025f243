import Stencil.Proofs.Render.Inlining
import Stencil.Proofs.Render.Remembering
import Stencil.Proofs.Template.Printing

/-!
# Texts that are written as they stand

An inclusion that does not parse its target writes the text of the source, whatever that text is. A
text without markers it writes even if it parses it, for parsing gives the very elements that a raw
template has; and no other text is parsed to these. The two ways of reading share a store, but not what
it remembers: at no moment does an inclusion find a template that was read the other way.

## Main definitions

* `Element.verbatim` are the elements that write a text as it stands.
* `Store.Holds` says that the text of a request is in the sources, and nothing else is remembered for it.
* `Inclusion.Reads` says that an inclusion asks for such a text.

## Main results

* `parseTemplate_eq_verbatim_iff`: what is parsed to these elements.
* `visit_of_reads`: an inclusion that reads a text writes it, and does nothing else.
* `raw_inclusion_verbatim`: how inclusions that parse their target and those that do not compare.
-/

namespace Stencil

/-! ## Elements that write a text -/

/-- The elements that write a text as it stands; the empty text needs none. -/
def Element.verbatim (text : String) : List Element :=
  if text = "" then [] else [.text ⟨1, 1⟩ text]

theorem Template.root_raw (text name sourceName : String) (encoding : Option String) :
    (raw text name sourceName encoding).root = Element.verbatim text := rfl

/-- **Exactly the texts without markers are parsed to themselves.** -/
theorem parseTemplate_eq_verbatim_iff (text name : String) :
    parseTemplate text name = .ok (Element.verbatim text) ↔ Unmarked text.toList := by
  by_cases hempty : text = ""
  · subst hempty
    exact ⟨fun _ => unmarked_nil, fun _ => parseTemplate_eq_ok_iff.mpr ⟨[], .nil _, .nil⟩⟩
  rw [Element.verbatim, if_neg hempty]
  constructor
  · intro h
    exact (wellFormed_of_parseTemplate h).1.2
  · intro hunmarked
    have hne : text.toList ≠ [] := fun hnil => hempty (String.toList_eq_nil_iff.mp hnil)
    -- the whole text is a single slice
    have hsliced := Sliced.cons (k := .start) hne (cut_text hne hunmarked (.inl rfl)) (.nil _)
    rw [List.append_nil, String.ofList_toList] at hsliced
    exact parseTemplate_eq_ok_iff.mpr ⟨_, hsliced, .leaf rfl .nil⟩

theorem visit_verbatim (job : Job) (text : String) (s : RenderState) :
    visit job (Element.verbatim text) s = (.ok (), s.write text) := by
  unfold Element.verbatim
  split
  · next hempty =>
    rw [hempty, RenderState.write, String.append_empty]
    rfl
  · exact visit_singleton job _ s

/-- Below the recursion limit, a template that has these elements writes the text when it is included. -/
theorem include_verbatim {job : Job} {template : Template} {text : String} {s : RenderState}
    (hroot : template.root = Element.verbatim text)
    (hlimit : s.chain.length < job.settings.recursionLimit) :
    includeTemplate job template s = (.ok (), s.write text) := by
  rw [includeTemplate_apply, if_neg (Nat.not_le.mpr hlimit), Run.nested_apply, hroot,
    visit_verbatim]
  rfl

/-! ## Sources that hold a text -/

/-- The source of the name that is asked for holds the text, in the encoding that is asked for. -/
def Loader.Holds (l : Loader) (r : Request) (text : String) : Prop :=
  ∃ label bytes, l.find r.name = some ⟨label, .ok bytes⟩ ∧ decodeText r.encoding bytes = .ok text

/-- The sources hold the text that is asked for, and if something is remembered for the request, then
what they give. -/
structure Store.Holds (s : Store) (r : Request) (text : String) : Prop where
  source : s.loader.Holds r text
  remembered : ∀ t, s.remembered? r = some t → load s.loader r = .ok (some t)

theorem Store.Mirrors.holds {l : Loader} {defaultEncoding : String} {s : Store}
    (h : s.Mirrors l defaultEncoding) {r : Request} {text : String} (hsource : l.Holds r text) :
    s.Holds r text := by
  obtain ⟨rfl, -, hremembered⟩ := h
  exact ⟨hsource, hremembered r⟩

theorem templateOf_verbatim (r : Request) (label text : String)
    (hparse : r.parse = true → Unmarked text.toList) :
    ∃ t, templateOf r label text = .ok t ∧ t.root = Element.verbatim text := by
  cases hr : r.parse with
  | false => exact ⟨_, by rw [templateOf, hr]; rfl, Template.root_raw _ _ _ _⟩
  | true =>
    have hroot := (parseTemplate_eq_verbatim_iff text r.name).mpr (hparse hr)
    exact ⟨_, by rw [templateOf, hr, Template.ofText, hroot]; rfl, rfl⟩

/-- A text that is not parsed, or that holds no marker, is loaded as it stands. -/
theorem load_verbatim {l : Loader} {r : Request} {text : String} (h : l.Holds r text)
    (hparse : r.parse = true → Unmarked text.toList) :
    ∃ t, load l r = .ok (some t) ∧ t.root = Element.verbatim text := by
  obtain ⟨label, bytes, hfind, hdecode⟩ := h
  obtain ⟨t, ht, hroot⟩ := templateOf_verbatim r label text hparse
  refine ⟨t, ?_, hroot⟩
  simp only [load, hfind, loadSource, hdecode, ht]
  rfl

theorem Store.Holds.ask {s : Store} {q : Query} {r : Request} {text : String}
    (h : s.Holds r text) (hrequest : q.request s.defaultEncoding = .ok r)
    (hparse : r.parse = true → Unmarked text.toList) :
    ∃ t, (s.ask q).1 = .ok (some t) ∧ t.root = Element.verbatim text := by
  obtain ⟨t, hload, hroot⟩ := load_verbatim h.source hparse
  refine ⟨t, ?_, hroot⟩
  cases hmemory : s.remembered? r with
  | some u =>
    -- what is remembered is what would be loaded
    cases hload.symm.trans (h.remembered u hmemory)
    exact ask_of_remembered hrequest hmemory
  | none => rw [ask_of_new hrequest hmemory, Loader.answer_of_load hrequest hload]

/-! ## Inclusions that read a text -/

/-- In the state the inclusion asks for `d`, and the text is what the sources hold under that name, in
that encoding. -/
structure Inclusion.Reads (job : Job) (i : Inclusion) (s : RenderState) (d : Demand) (text : String) :
    Prop where
  asks : i.Asks job s d
  holds : ∀ r, (d.query job).request s.store.defaultEncoding = .ok r → s.store.Holds r text

section

variable {job : Job} {i : Inclusion} {s : RenderState} {d : Demand} {text : String}

theorem Inclusion.Reads.found (h : i.Reads job s d text)
    (hparse : d.parse = true → Unmarked text.toList) :
    ∃ template, template.root = Element.verbatim text ∧
      inclusionTarget job i s =
        (.ok (some template), { s with store := (s.store.ask (d.query job)).2 }) := by
  obtain ⟨r, hrequest, -, hread⟩ := h.asks.request s.store.defaultEncoding
  obtain ⟨t, hanswer, hroot⟩ := (h.holds r hrequest).ask hrequest fun hr =>
    hparse (hread.symm.trans hr)
  refine ⟨t, hroot, ?_⟩
  rw [h.asks.inclusionTarget_ask, hanswer]
  rfl

/-- **An inclusion that reads a text writes it**, and but for that leaves the state as it is; what it has
asked for is remembered. -/
theorem visit_of_reads (h : i.Reads job s d text)
    (hparse : d.parse = true → Unmarked text.toList)
    (hlimit : s.chain.length < job.settings.recursionLimit) (p : Place) :
    visit job [.inclusion p i] s =
      (.ok (),
        { s with
          output := s.output ++ text
          store := (s.store.ask (d.query job)).2 }) := by
  obtain ⟨template, hroot, hfound⟩ := h.found hparse
  obtain ⟨-, hvisit⟩ := visit_of_found hfound p
  -- inside the element there are as many levels of nesting left
  have hinside := include_verbatim (s := RenderState.enterElement (.inclusion p i)
    { s with store := (s.store.ask (d.query job)).2 }) hroot hlimit
  rw [hvisit, Run.framed_apply, hinside]
  rfl

end

/-! ## What is found in a render -/

namespace Moment.Reached

variable {job : Job} {main : Template} {m : Moment} {i : Inclusion} {d : Demand}
  {loader : Loader} {defaultEncoding : String}

/-- Whatever has been asked for before, in the render and before it, an inclusion that finds a template
finds one that was read as it asks for. -/
theorem parsed_of_found {ops : List Operation}
    (h : Reached job main ((Store.new loader defaultEncoding).after ops) m)
    (hasks : i.Asks job m.state d) {template : Template}
    (hfound : (inclusionTarget job i m.state).1 = .ok (some template)) :
    template.parsed = d.parse := by
  obtain ⟨questions, hstore⟩ := h.store_after
  obtain ⟨r, hrequest, -, hparse⟩ := hasks.request defaultEncoding
  -- the questions of the render come behind what was done before it
  have hanswer :
      answerAfter loader defaultEncoding (ops ++ questions.map .get) (d.query job) =
        .ok (some template) := by
    rw [hasks.inclusionTarget_ask, hstore, ← Store.after_append, mapError_eq_ok] at hfound
    exact hfound
  exact (ofRequest_of_answerAfter hrequest hanswer).parsed.trans hparse

/-- With sources that are as they are remembered, an inclusion finds what these alone answer. -/
theorem found_of_mirrors {store : Store} (hstore : store.Mirrors loader defaultEncoding)
    (h : Reached job main store m) (hasks : i.Asks job m.state d) :
    (inclusionTarget job i m.state).1 =
      (loader.answer defaultEncoding (d.query job)).mapError (includeFailure d.name) := by
  rw [hasks.inclusionTarget_ask, ((h.mirrors hstore).ask (d.query job)).1]

/-- With such sources it reads what they hold. -/
theorem reads_of_mirrors {store : Store} (hstore : store.Mirrors loader defaultEncoding)
    (h : Reached job main store m) (hasks : i.Asks job m.state d) {text : String}
    (hsource : ∀ r, (d.query job).request defaultEncoding = .ok r → loader.Holds r text) :
    i.Reads job m.state d text := by
  have hmirrors := h.mirrors hstore
  refine ⟨hasks, fun r hrequest => hmirrors.holds (hsource r ?_)⟩
  rw [← hmirrors.defaultEncoding]
  exact hrequest

end Moment.Reached

/-- **Raw inclusion is verbatim, and agrees with parsing on texts without markers.** Below the recursion
limit, an inclusion of a source that decodes to a text succeeds, writes that text and leaves the rest of
the state as it is, but for what is remembered of the sources, provided that the target is not parsed, or
that the text holds no marker. Parsing gives the elements of the raw template for such texts and for no
others. In a render, whatever has been asked for in it or before it, an inclusion that finds a template
finds one that was read as the inclusion says, parsed or not; and if the sources are as they are
remembered, it finds at each moment what they alone answer, and reads the text that they hold. -/
theorem raw_inclusion_verbatim (job : Job) :
    (∀ (s : RenderState) (p : Place) (i : Inclusion) (d : Demand) (text : String),
      i.Reads job s d text → s.chain.length < job.settings.recursionLimit →
      d.parse = false ∨ Unmarked text.toList →
      visit job [.inclusion p i] s =
        (.ok (),
          { s with
            output := s.output ++ text
            store := (s.store.ask (d.query job)).2 })) ∧
      (∀ (text name sourceName : String) (encoding : Option String),
        parseTemplate text name = .ok (Template.raw text name sourceName encoding).root ↔
          Unmarked text.toList) ∧
      (∀ (loader : Loader) (defaultEncoding : String) (ops : List Operation) (main : Template)
        (m : Moment) (i : Inclusion) (d : Demand) (template : Template),
        Moment.Reached job main ((Store.new loader defaultEncoding).after ops) m →
        i.Asks job m.state d → (inclusionTarget job i m.state).1 = .ok (some template) →
        template.parsed = d.parse) ∧
      ∀ (loader : Loader) (defaultEncoding : String) (store : Store) (main : Template)
        (m : Moment) (i : Inclusion) (d : Demand),
        store.Mirrors loader defaultEncoding → Moment.Reached job main store m →
        i.Asks job m.state d →
        (inclusionTarget job i m.state).1 =
            (loader.answer defaultEncoding (d.query job)).mapError (includeFailure d.name) ∧
          ∀ text : String,
            (∀ r, (d.query job).request defaultEncoding = .ok r → loader.Holds r text) →
            i.Reads job m.state d text := by
  refine ⟨?_, fun text name _ _ => parseTemplate_eq_verbatim_iff text name, ?_, ?_⟩
  · intro s p i d text hreads hlimit hparse
    refine visit_of_reads hreads (fun hparsed => ?_) hlimit p
    exact hparse.resolve_left (by rw [hparsed]; exact nofun)
  · intro loader defaultEncoding ops main m i d template hreached hasks hfound
    exact hreached.parsed_of_found hasks hfound
  · intro loader defaultEncoding store main m i d hstore hreached hasks
    exact ⟨hreached.found_of_mirrors hstore hasks, fun text => hreached.reads_of_mirrors hstore hasks⟩

/-- The source of `b` opens an interpolation and ends, that of `c` is a dollar sign before a bracket. -/
def unfinished : Loader := (Loader.empty.put "b" (.ok [36, 123])).put "c" (.ok [36, 60])

/-- The inclusion of a template, parsed or as it stands. -/
def Inclusion.readingAs (name : String) (parse : Bool) : Inclusion :=
  ⟨.str name, .default none, .folded parse (.bool parse), .default false⟩

theorem Inclusion.asks_readingAs (job : Job) {s : RenderState} {name full : String} (parse : Bool)
    (h : Name.resolve s.current.name name = .ok full) :
    (readingAs name parse).Asks job s ⟨name, full, none, parse, false⟩ := ⟨rfl, h, rfl⟩

/-- The template `a`, which includes `c` as it stands and then parses it. -/
def twice : Template :=
  ⟨"a", [.inclusion ⟨1, 1⟩ (.readingAs "c" false), .inclusion ⟨2, 1⟩ (.readingAs "c" true)],
    "dict:a", some "utf-8", true⟩

theorem unfinished_holds (parse : Bool) :
    unfinished.Holds ⟨"b", "utf-8", parse⟩ "$\x7b" ∧ unfinished.Holds ⟨"c", "utf-8", parse⟩ "$<" :=
  ⟨⟨_, _, rfl, by decide +kernel +revert⟩, ⟨_, _, rfl, by decide +kernel +revert⟩⟩

/-- The malformed source is written as it stands, and cannot be parsed to that. The other one is found
parsed where it is to be parsed, after it was included as it stands. -/
theorem raw_inclusion_of_unfinished :
    let job : Job := ⟨"a", .defaults, []⟩
    let store : Store := .new unfinished "utf-8"
    (∃ store', visit job [.inclusion ⟨1, 1⟩ (.readingAs "b" false)] (.initial twice store) =
        (.ok (), { RenderState.initial twice store with output := "$\x7b", store := store' })) ∧
      (∀ name, parseTemplate "$\x7b" name ≠ .ok (Template.raw "$\x7b" name "" none).root) ∧
      ∃ m, Moment.Reached job twice store m ∧ m.state.output = "$<" ∧
        (m.state.store.remembered? ⟨"c", "utf-8", false⟩).isSome = true ∧
        ∃ template, (inclusionTarget job (.readingAs "c" true) m.state).1 = .ok (some template) ∧
          template.parsed = true := by
  intro job store
  obtain ⟨hvisit, hparse, hread, hfound⟩ := raw_inclusion_verbatim job
  have hmirrors : store.Mirrors unfinished "utf-8" := Store.mirrors_new unfinished "utf-8"
  have hstart : Moment.Reached job twice store (.start twice store) := .refl
  -- at the start each of the sources is read as it stands
  have hreads : ∀ name full text, Name.resolve "a" name = .ok full →
      unfinished.Holds ⟨full, "utf-8", false⟩ text →
      (Query.request "utf-8" ⟨full, some "utf-8", false, false⟩ = .ok ⟨full, "utf-8", false⟩) →
      (Inclusion.readingAs name false).Reads job (.initial twice store)
        ⟨name, full, none, false, false⟩ text := by
    intro name full text hfull hholds hrequest
    have hsource := (hfound unfinished "utf-8" store twice _ (.readingAs name false) _ hmirrors
      hstart (Inclusion.asks_readingAs job false hfull)).2 text
    exact hsource fun r hr => by cases hrequest.symm.trans hr; exact hholds
  have hb := hreads "b" "b" "$\x7b" (by decide +kernel) (unfinished_holds false).1 (by decide +kernel)
  have hc := hreads "c" "c" "$<" (by decide +kernel) (unfinished_holds false).2 (by decide +kernel)
  refine ⟨⟨_, hvisit _ _ _ _ _ hb (by decide) (.inl rfl)⟩, ?_, ?_⟩
  · intro name hname
    exact absurd ((hparse _ _ _ _).mp hname) (by decide)
  · have hfirst := hvisit _ ⟨1, 1⟩ _ _ _ hc (by decide) (.inl rfl)
    have hreached : Moment.Reached job twice store _ :=
      leads_done [.inclusion ⟨2, 1⟩ (.readingAs "c" true)] hfirst
    have hasks : ∀ m : Moment, m.state.current = twice →
        (Inclusion.readingAs "c" true).Asks job m.state ⟨"c", "c", none, true, false⟩ := by
      intro m hm
      exact Inclusion.asks_readingAs job true (by rw [hm]; decide +kernel)
    obtain ⟨hanswer, -⟩ :=
      hfound unfinished "utf-8" store twice _ _ _ hmirrors hreached (hasks _ rfl)
    obtain ⟨template, hload, -⟩ := load_verbatim (unfinished_holds true).2 fun _ => by decide
    have hrequest : Query.request "utf-8" ⟨"c", some "utf-8", true, false⟩ =
        .ok ⟨"c", "utf-8", true⟩ := by decide +kernel
    have htarget := hanswer.trans
      (congrArg (Except.mapError (includeFailure "c")) (Loader.answer_of_load hrequest hload))
    exact ⟨_, hreached, rfl, by decide +kernel, template, htarget,
      hread unfinished "utf-8" [] twice _ _ _ template hreached (hasks _ rfl) htarget⟩

end Stencil

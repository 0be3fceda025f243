import Stencil.Proofs.Name.NormalForm
import Stencil.Proofs.Outcome
import Stencil.Store

/-!
# What a store remembers

A store answers a question from what it remembers, or from its sources as they are; only a template
that was found is remembered, and it is remembered for the request that the question stands for.

## Main definitions

* `Query` is a question to a store, `Query.request` the request that it stands for.
* `Loader.answer` is the answer of the sources alone.
* `Store.Answered` lists all that a question can lead to.
* `Store.Mirrors` is a store that remembers what its sources give.

## Main results

* `Store.answered`: a question leads to one of these.
* `Store.Mirrors.ask`: a store that mirrors its sources answers as they alone do.
* `ofRequest_of_load`: a loaded template is named, encoded and read as it was asked for.
-/

namespace Stencil

/-- A question to a store. -/
structure Query where
  name : String
  encoding : Option String
  parse : Bool
  ignoreMissing : Bool

/-- The request that a question stands for. -/
def Query.request (defaultEncoding : String) (q : Query) : Except Failure Request :=
  Request.ofName defaultEncoding q.name q.encoding q.parse

/-- The answer of the sources alone, when nothing is remembered. -/
def Loader.answer (l : Loader) (defaultEncoding : String) (q : Query) :
    Except Failure (Option Template) := do
  let r ← q.request defaultEncoding
  match ← load l r with
  | some t => return some t
  | none => missing r q.ignoreMissing

/-! ## Requests -/

theorem Query.normal_of_request {defaultEncoding : String} {q : Query} {r : Request}
    (h : q.request defaultEncoding = .ok r) : Name.normalize r.name = .ok r.name := by
  unfold request Request.ofName at h
  split at h
  · cases h
  · next name hname =>
    cases h
    exact Name.normalize_normal hname

/-- A name in normal form is asked for as it is. -/
theorem Request.ofName_of_normal {name : String} (h : Name.normalize name = .ok name)
    (defaultEncoding : String) (encoding : Option String) (parse : Bool) :
    ∃ r, Request.ofName defaultEncoding name encoding parse = .ok r ∧ r.name = name ∧
      r.parse = parse := by
  unfold ofName
  rw [h]
  exact ⟨_, rfl, rfl, rfl⟩

namespace Loader

variable {l : Loader} {defaultEncoding : String} {q : Query} {r : Request}

theorem answer_of_request_error {x : Failure} (h : q.request defaultEncoding = .error x) :
    l.answer defaultEncoding q = .error x := by
  simp only [answer, h, bind, Except.bind]

theorem answer_of_load (h : q.request defaultEncoding = .ok r) {t : Template}
    (hload : load l r = .ok (some t)) : l.answer defaultEncoding q = .ok (some t) := by
  simp only [answer, h, hload, bind, Except.bind]
  rfl

theorem answer_of_missing (h : q.request defaultEncoding = .ok r) (hload : load l r = .ok none) :
    l.answer defaultEncoding q = missing r q.ignoreMissing := by
  simp only [answer, h, hload, bind, Except.bind]

theorem answer_of_load_error (h : q.request defaultEncoding = .ok r) {x : Failure}
    (hload : load l r = .error x) : l.answer defaultEncoding q = .error x := by
  simp only [answer, h, hload, bind, Except.bind]

end Loader

/-! ## Loaded templates -/

/-- The template is named, encoded and read as the request asks for. -/
structure Template.OfRequest (r : Request) (t : Template) : Prop where
  name : t.name = r.name
  encoding : t.encoding = some r.encoding
  parsed : t.parsed = r.parse

theorem ofRequest_of_templateOf {r : Request} {label text : String} {t : Template}
    (h : templateOf r label text = .ok t) : t.OfRequest r := by
  unfold templateOf at h
  split at h
  · next hparse =>
    split at h
    · cases h
    · obtain ⟨root, -, h⟩ := bind_eq_ok.mp h
      cases h
      exact ⟨rfl, rfl, hparse.symm⟩
  · next hparse =>
    cases h
    exact ⟨rfl, rfl, (Bool.eq_false_iff.mpr hparse).symm⟩

/-- A template that is loaded is that of the text which its source holds. -/
theorem exists_templateOf_of_load {l : Loader} {r : Request} {t : Template}
    (h : load l r = .ok (some t)) : ∃ label text, templateOf r label text = .ok t := by
  unfold load at h
  split at h
  · cases h
  obtain ⟨u, h, hu⟩ := map_eq_ok.mp h
  cases hu
  unfold loadSource at h
  split at h
  · cases h
  split at h <;> first | cases h | exact ⟨_, _, h⟩

theorem ofRequest_of_load {l : Loader} {r : Request} {t : Template}
    (h : load l r = .ok (some t)) : t.OfRequest r := by
  obtain ⟨label, text, htemplate⟩ := exists_templateOf_of_load h
  exact ofRequest_of_templateOf htemplate

namespace Store

/-- Asks a store a question. -/
def ask (s : Store) (q : Query) : Except Failure (Option Template) × Store :=
  s.get q.name q.encoding q.parse q.ignoreMissing

theorem ask_of_request {s : Store} {q : Query} {r : Request}
    (h : q.request s.defaultEncoding = .ok r) : s.ask q = s.answer r q.ignoreMissing := by
  unfold Query.request at h
  rw [ask, get, h]

/-! ## What a question leads to -/

/-- All that a question to a store can lead to: the answer, and the store afterwards. -/
inductive Answered (s : Store) (q : Query) : Except Failure (Option Template) × Store → Prop
  /-- The name has no normal form. -/
  | refused {x : Failure} (hrequest : q.request s.defaultEncoding = .error x) :
      Answered s q (.error x, s)
  /-- The answer is remembered. -/
  | remembered {r : Request} {t : Template} (hrequest : q.request s.defaultEncoding = .ok r)
      (ht : s.remembered? r = some t) : Answered s q (.ok (some t), s)
  /-- The sources have the template. -/
  | loaded {r : Request} {t : Template} (hrequest : q.request s.defaultEncoding = .ok r)
      (hnew : s.remembered? r = none) (hload : load s.loader r = .ok (some t)) :
      Answered s q (.ok (some t), s.remember r t)
  /-- The sources do not have the template, or it cannot be loaded. -/
  | unfound {r : Request} {a : Except Failure (Option Template)}
      (hrequest : q.request s.defaultEncoding = .ok r) (hnew : s.remembered? r = none)
      (hload : ∀ t, load s.loader r ≠ .ok (some t)) (hanswer : ∀ t, a ≠ .ok (some t))
      (ha : s.loader.answer s.defaultEncoding q = a) : Answered s q (a, s)

theorem missing_ne_found (r : Request) (ignoreMissing : Bool) (t : Template) :
    missing r ignoreMissing ≠ .ok (some t) := by
  cases ignoreMissing <;> exact nofun

theorem answered (s : Store) (q : Query) : Answered s q (s.ask q) := by
  unfold ask get
  split
  · next x hrequest => exact .refused hrequest
  · next r hrequest =>
    unfold answer
    split
    · next t ht => exact .remembered hrequest ht
    · next hnew =>
      split
      · next x hload =>
        exact .unfound hrequest hnew (by rw [hload]; exact nofun) nofun
          (Loader.answer_of_load_error hrequest hload)
      · next hload =>
        exact .unfound hrequest hnew (by rw [hload]; exact nofun) (missing_ne_found r _)
          (Loader.answer_of_missing hrequest hload)
      · next t hload => exact .loaded hrequest hnew hload

/-- Whatever is asked for, the sources and the default encoding stay. -/
theorem ask_kept (s : Store) (q : Query) :
    (s.ask q).2.loader = s.loader ∧ (s.ask q).2.defaultEncoding = s.defaultEncoding := by
  have h := s.answered q
  generalize s.ask q = a at h
  cases h <;> exact ⟨rfl, rfl⟩

/-- Where there is neither a memory nor a source, it is up to the question whether that is a failure. -/
theorem answer_of_sourceless {s : Store} {r : Request} (hnew : s.remembered? r = none)
    (hsource : s.loader.find r.name = none) (ignoreMissing : Bool) :
    s.answer r ignoreMissing = (missing r ignoreMissing, s) := by
  simp only [answer, hnew, load, hsource]

/-- Where there is a memory or a source, it does not matter whether the template may be missing. -/
theorem answer_of_sourced {s : Store} {r : Request}
    (h : s.remembered? r = none → s.loader.find r.name ≠ none) (a b : Bool) :
    s.answer r a = s.answer r b := by
  cases hnew : s.remembered? r with
  | some t => rw [answer_of_remembered hnew, answer_of_remembered hnew]
  | none =>
    obtain ⟨source, hsource⟩ := Option.ne_none_iff_exists'.mp (h hnew)
    simp only [answer, hnew, load, hsource]
    cases loadSource r source <;> rfl

/-! ## What is remembered -/

/-- A template that is remembered where there was none does not change what is remembered for
other requests. -/
theorem remembered?_remember {s : Store} {r : Request} (hnew : s.remembered? r = none)
    (t : Template) (other : Request) :
    (s.remember r t).remembered? other = if other = r then some t else s.remembered? other := by
  unfold remembered? at hnew ⊢
  rw [remember, List.lookup_append]
  by_cases h : other = r
  · rw [if_pos h, h, hnew, Option.none_or]
    exact List.lookup_cons_self
  · have hother : List.lookup other [(r, t)] = none :=
      List.lookup_eq_none_iff.mpr fun p hp => by
        rw [List.mem_singleton.mp hp]
        exact bne_iff_ne.mpr h
    rw [if_neg h, hother, Option.or_none]

/-- The store has these sources, and remembers for each request what they give. -/
structure Mirrors (l : Loader) (defaultEncoding : String) (s : Store) : Prop where
  loader : s.loader = l
  defaultEncoding : s.defaultEncoding = defaultEncoding
  remembered : ∀ r t, s.remembered? r = some t → load l r = .ok (some t)

variable {l : Loader} {defaultEncoding : String}

theorem mirrors_new (l : Loader) (defaultEncoding : String) :
    (new l defaultEncoding).Mirrors l defaultEncoding :=
  ⟨rfl, rfl, nofun⟩

theorem Mirrors.clear {s : Store} (h : s.Mirrors l defaultEncoding) :
    s.clear.Mirrors l defaultEncoding :=
  ⟨h.loader, h.defaultEncoding, nofun⟩

/-- A store that mirrors its sources answers as they alone do, and goes on to mirror them. -/
theorem Mirrors.ask {s : Store} (h : s.Mirrors l defaultEncoding) (q : Query) :
    (s.ask q).1 = l.answer defaultEncoding q ∧ (s.ask q).2.Mirrors l defaultEncoding := by
  obtain ⟨rfl, rfl, hremembered⟩ := h
  have hanswered := s.answered q
  generalize s.ask q = a at hanswered
  cases hanswered with
  | refused hrequest =>
    exact ⟨(Loader.answer_of_request_error hrequest).symm, rfl, rfl, hremembered⟩
  | remembered hrequest ht =>
    exact ⟨(Loader.answer_of_load hrequest (hremembered _ _ ht)).symm, rfl, rfl, hremembered⟩
  | unfound hrequest hnew hload hanswer ha => exact ⟨ha.symm, rfl, rfl, hremembered⟩
  | @loaded r t hrequest hnew hload =>
    refine ⟨(Loader.answer_of_load hrequest hload).symm, rfl, rfl, fun other u hu => ?_⟩
    rw [remembered?_remember hnew] at hu
    split at hu
    · next heq =>
      cases hu
      rw [heq]
      exact hload
    · exact hremembered other u hu

end Store

end Stencil

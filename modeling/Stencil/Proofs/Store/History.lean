import Mathlib.Data.List.Induction
import Stencil.Proofs.Store.Memory

/-!
# A store answers as its sources did

What a store answers depends on its history: on which sources were put when, what was asked in
between, and when everything was last forgotten. The theorem of this file says of which moment of that
history an answer is true. A question gets the answer that the sources alone gave when a template was
first found for its request, since everything was last forgotten; as long as none was found, it gets
the answer that they give now.

## Main definitions

* `Operation` is what can be done with a store, `Store.after` the store after operations, and
  `Loader.after` the sources after them.
* `FirstFound` says when a template was first found for a request, `Unfound` that none was.

## Main results

* `remembered_of_history`: what is remembered after operations.
* `answers_of_history`: the answers, and what is remembered with which names.
-/

namespace Stencil

/-- What can be done with a store. -/
inductive Operation
  | put (name : String) (content : Except String (List UInt8))
  | get (q : Query)
  | clear

/-- The sources after an operation. -/
def Loader.step (l : Loader) : Operation → Loader
  | .put name content => l.put name content
  | .get _ => l
  | .clear => l

/-- The sources after operations. -/
def Loader.after (l : Loader) (ops : List Operation) : Loader := ops.foldl Loader.step l

namespace Store

/-- The store after an operation. -/
def step (s : Store) : Operation → Store
  | .put name content => s.put name content
  | .get q => (s.ask q).2
  | .clear => s.clear

/-- The store after operations. -/
def after (s : Store) (ops : List Operation) : Store := ops.foldl step s

end Store

/-- A question was asked when the operations `before` had been carried out, and nothing has been
forgotten since. -/
def Asked (ops before : List Operation) (q : Query) : Prop :=
  ∃ later, ops = before ++ .get q :: later ∧ .clear ∉ later

section

variable (loader : Loader) (defaultEncoding : String)

/-- The answer to a question after operations on a store that remembered nothing. -/
def answerAfter (ops : List Operation) (q : Query) : Except Failure (Option Template) :=
  (((Store.new loader defaultEncoding).after ops).ask q).1

/-- Since everything was last forgotten, no template has been found for a request. -/
def Unfound (ops : List Operation) (r : Request) : Prop :=
  ∀ before q, Asked ops before q → q.request defaultEncoding = .ok r →
    ∀ t, answerAfter loader defaultEncoding before q ≠ .ok (some t)

/-- Since everything was last forgotten, a template was first found for a request when the operations
`before` had been carried out. -/
def FirstFound (ops : List Operation) (r : Request) (before : List Operation) : Prop :=
  Unfound loader defaultEncoding before r ∧
    ∃ q t, Asked ops before q ∧ q.request defaultEncoding = .ok r ∧
      answerAfter loader defaultEncoding before q = .ok (some t)

end

/-! ## One operation more -/

theorem not_asked_nil (before : List Operation) (q : Query) : ¬ Asked [] before q := by
  rintro ⟨later, hnil, -⟩
  exact absurd hnil.symm (List.append_ne_nil_of_right_ne_nil before (List.cons_ne_nil _ _))

/-- A question asked since everything was last forgotten is the last operation, or was asked before
it and has not been forgotten by it. -/
theorem asked_append_singleton {ops before : List Operation} {o : Operation} {q : Query} :
    Asked (ops ++ [o]) before q ↔
      (o = .get q ∧ before = ops) ∨ (o ≠ .clear ∧ Asked ops before q) := by
  constructor
  · rintro ⟨later, heq, hclear⟩
    rcases List.eq_nil_or_concat later with rfl | ⟨later, last, rfl⟩
    · obtain ⟨hops, hlast⟩ := List.append_inj' heq rfl
      exact .inl ⟨List.singleton_inj.mp hlast, hops.symm⟩
    · rw [List.concat_eq_append, ← List.cons_append, ← List.append_assoc] at heq
      obtain ⟨hops, hlast⟩ := List.append_inj' heq rfl
      rw [List.concat_eq_append, List.mem_append, not_or, List.mem_singleton] at hclear
      rw [List.singleton_inj.mp hlast]
      exact .inr ⟨Ne.symm hclear.2, later, hops, hclear.1⟩
  · rintro (⟨rfl, rfl⟩ | ⟨ho, later, rfl, hclear⟩)
    · exact ⟨[], rfl, List.not_mem_nil⟩
    · refine ⟨later ++ [o], by rw [List.append_assoc, List.cons_append], ?_⟩
      rw [List.mem_append, List.mem_singleton]
      exact not_or.mpr ⟨hclear, Ne.symm ho⟩

namespace Store

variable {s : Store} {q : Query} {r : Request} {t : Template}

theorem after_append_singleton (s : Store) (ops : List Operation) (o : Operation) :
    s.after (ops ++ [o]) = (s.after ops).step o :=
  List.foldl_append ..

theorem after_append (s : Store) (ops later : List Operation) :
    s.after (ops ++ later) = (s.after ops).after later :=
  List.foldl_append ..

/-- Only forgetting everything takes a template from what is remembered. -/
theorem remembered?_step {o : Operation} (ho : o ≠ .clear) (h : s.remembered? r = some t) :
    (s.step o).remembered? r = some t := by
  cases o with
  | put name content => exact h
  | clear => exact absurd rfl ho
  | get q =>
    rw [step]
    have hanswered := s.answered q
    generalize s.ask q = a at hanswered
    cases hanswered with
    | refused | remembered | unfound => exact h
    | @loaded r' u hrequest hnew hload =>
      have hne : r ≠ r' := by
        rintro rfl
        rw [h] at hnew
        cases hnew
      rw [remembered?_remember hnew, if_neg hne]
      exact h

/-- A template that an operation makes a store remember was the answer to a question. -/
theorem remembered?_of_step {o : Operation} (h : (s.step o).remembered? r = some t)
    (hnew : s.remembered? r = none) :
    ∃ q, o = .get q ∧ q.request s.defaultEncoding = .ok r ∧ (s.ask q).1 = .ok (some t) := by
  cases o with
  | put name content =>
    rw [show s.remembered? r = some t from h] at hnew
    cases hnew
  | clear => cases h
  | get q =>
    refine ⟨q, rfl, ?_⟩
    rw [step] at h
    have hanswered := s.answered q
    generalize s.ask q = a at h hanswered
    cases hanswered with
    | refused | remembered | unfound =>
      rw [h] at hnew
      cases hnew
    | loaded hrequest hnew' hload =>
      rw [remembered?_remember hnew'] at h
      split at h
      · next heq =>
        cases h
        rw [heq]
        exact ⟨hrequest, rfl⟩
      · rw [h] at hnew
        cases hnew

/-- A template that is found is remembered. It comes from the sources if it was not remembered
before. -/
theorem remembered?_of_found (hrequest : q.request s.defaultEncoding = .ok r)
    (h : (s.ask q).1 = .ok (some t)) :
    (s.step (.get q)).remembered? r = some t ∧
      (s.remembered? r = none → load s.loader r = .ok (some t)) := by
  rw [step]
  have hanswered := s.answered q
  generalize s.ask q = a at h hanswered
  cases hanswered with
  | refused => cases h
  | unfound hrequest' hnew hload hanswer => exact absurd h (hanswer t)
  | remembered hrequest' ht =>
    cases h
    cases hrequest.symm.trans hrequest'
    exact ⟨ht, fun hnew => by rw [ht] at hnew; cases hnew⟩
  | loaded hrequest' hnew hload =>
    cases h
    cases hrequest.symm.trans hrequest'
    exact ⟨by rw [remembered?_remember hnew, if_pos rfl], fun _ => hload⟩

theorem ask_of_request_error {x : Failure} (h : q.request s.defaultEncoding = .error x) :
    s.ask q = (.error x, s) := by
  unfold Query.request at h
  rw [ask, get, h]

theorem ask_of_remembered (hrequest : q.request s.defaultEncoding = .ok r)
    (ht : s.remembered? r = some t) : (s.ask q).1 = .ok (some t) := by
  rw [ask_of_request hrequest, answer_of_remembered ht]

theorem ask_of_new (hrequest : q.request s.defaultEncoding = .ok r)
    (hnew : s.remembered? r = none) :
    (s.ask q).1 = s.loader.answer s.defaultEncoding q := by
  have hanswered := s.answered q
  generalize s.ask q = a at hanswered
  cases hanswered with
  | refused hrequest' => exact (Loader.answer_of_request_error hrequest').symm
  | unfound hrequest' hnew' hload hanswer ha => exact ha.symm
  | loaded hrequest' hnew' hload => exact (Loader.answer_of_load hrequest' hload).symm
  | remembered hrequest' ht =>
    cases hrequest.symm.trans hrequest'
    rw [ht] at hnew
    cases hnew

/-- What has not been found is not remembered. -/
theorem ask_of_not_found (h : ∀ t, (s.ask q).1 ≠ .ok (some t)) : (s.ask q).2 = s := by
  have hanswered := s.answered q
  generalize s.ask q = a at h hanswered
  cases hanswered with
  | loaded => exact absurd rfl (h _)
  | refused | remembered | unfound => rfl

end Store

/-! ## What is remembered after operations -/

section

variable {loader : Loader} {defaultEncoding : String} {ops before : List Operation} {r : Request}

theorem loader_after (loader : Loader) (defaultEncoding : String) (ops : List Operation) :
    ((Store.new loader defaultEncoding).after ops).loader = loader.after ops ∧
      ((Store.new loader defaultEncoding).after ops).defaultEncoding = defaultEncoding := by
  induction ops using List.reverseRecOn with
  | nil => exact ⟨rfl, rfl⟩
  | append_singleton ops o ih =>
    obtain ⟨hloader, hencoding⟩ := ih
    rw [Store.after_append_singleton, Loader.after, List.foldl_append]
    cases o with
    | put name content => exact ⟨congrArg (·.put name content) hloader, hencoding⟩
    | get q =>
      obtain ⟨hasked, hasked'⟩ := ((Store.new loader defaultEncoding).after ops).ask_kept q
      exact ⟨hasked.trans hloader, hasked'.trans hencoding⟩
    | clear => exact ⟨hloader, hencoding⟩

theorem Unfound.of_append {o : Operation} (h : Unfound loader defaultEncoding (ops ++ [o]) r)
    (ho : o ≠ .clear) : Unfound loader defaultEncoding ops r := fun before q hasked =>
  h before q (asked_append_singleton.mpr (.inr ⟨ho, hasked⟩))

/-- Where a template was first found, it was found before the last operation or by it. -/
theorem FirstFound.of_append {o : Operation}
    (h : FirstFound loader defaultEncoding (ops ++ [o]) r before) :
    (o ≠ .clear ∧ FirstFound loader defaultEncoding ops r before) ∨
      (before = ops ∧ Unfound loader defaultEncoding ops r ∧
        ∃ q t, o = .get q ∧ q.request defaultEncoding = .ok r ∧
          answerAfter loader defaultEncoding ops q = .ok (some t)) := by
  obtain ⟨hunfound, q, t, hasked, hrequest, hanswer⟩ := h
  rcases asked_append_singleton.mp hasked with ⟨rfl, rfl⟩ | ⟨ho, hasked⟩
  · exact .inr ⟨rfl, hunfound, q, t, rfl, hrequest, hanswer⟩
  · exact .inl ⟨ho, hunfound, q, t, hasked, hrequest, hanswer⟩

/-- A template has been found for a request since everything was last forgotten, or none has. -/
theorem unfound_or_firstFound (loader : Loader) (defaultEncoding : String) (ops : List Operation)
    (r : Request) :
    Unfound loader defaultEncoding ops r ∨
      ∃ before, FirstFound loader defaultEncoding ops r before := by
  induction ops using List.reverseRecOn with
  | nil => exact .inl fun before q hasked => absurd hasked (not_asked_nil before q)
  | append_singleton ops o ih =>
    by_cases ho : o = .clear
    · -- everything has just been forgotten
      left
      intro before q hasked
      rcases asked_append_singleton.mp hasked with ⟨hget, -⟩ | ⟨hclear, -⟩
      · rw [ho] at hget
        cases hget
      · exact absurd ho hclear
    rcases ih with hunfound | ⟨before, hfirst, q, t, hasked, hfound⟩
    · by_cases hnow : ∃ q t, o = .get q ∧ q.request defaultEncoding = .ok r ∧
          answerAfter loader defaultEncoding ops q = .ok (some t)
      · -- the last operation has found the first one
        obtain ⟨q, t, hget, hfound⟩ := hnow
        exact .inr ⟨ops, hunfound, q, t, asked_append_singleton.mpr (.inl ⟨hget, rfl⟩), hfound⟩
      · left
        intro before q hasked hrequest t hanswer
        rcases asked_append_singleton.mp hasked with ⟨hget, rfl⟩ | ⟨-, hasked⟩
        · exact hnow ⟨q, t, hget, hrequest, hanswer⟩
        · exact hunfound before q hasked hrequest t hanswer
    · exact .inr ⟨before, hfirst, q, t, asked_append_singleton.mpr (.inr ⟨ho, hasked⟩), hfound⟩

/-- The invariant of a store: what was first found for a request is remembered for it, and where
nothing was found nothing is remembered. -/
theorem remembered_of_history (loader : Loader) (defaultEncoding : String) (ops : List Operation)
    (r : Request) :
    (∀ before, FirstFound loader defaultEncoding ops r before →
      ∃ t, ((Store.new loader defaultEncoding).after ops).remembered? r = some t ∧
        load (loader.after before) r = .ok (some t)) ∧
      (Unfound loader defaultEncoding ops r →
        ((Store.new loader defaultEncoding).after ops).remembered? r = none) := by
  induction ops using List.reverseRecOn with
  | nil =>
    refine ⟨?_, fun _ => rfl⟩
    rintro before ⟨-, q, t, hasked, -⟩
    exact absurd hasked (not_asked_nil before q)
  | append_singleton ops o ih =>
    obtain ⟨ihfound, ihunfound⟩ := ih
    obtain ⟨hloader, hencoding⟩ := loader_after loader defaultEncoding ops
    rw [Store.after_append_singleton]
    constructor
    · intro before hfirst
      -- found before and kept, or found just now in the sources, as nothing was remembered
      rcases hfirst.of_append with ⟨ho, hbefore⟩ | ⟨rfl, hunfound, q, t, rfl, hrequest, hanswer⟩
      · obtain ⟨t, ht, hload⟩ := ihfound before hbefore
        exact ⟨t, Store.remembered?_step ho ht, hload⟩
      · rw [← hencoding] at hrequest
        obtain ⟨ht, hload⟩ := Store.remembered?_of_found hrequest hanswer
        rw [← hloader]
        exact ⟨t, ht, hload (ihunfound hunfound)⟩
    · intro hunfound
      by_cases ho : o = .clear
      · subst ho
        rfl
      · have hnew := ihunfound (hunfound.of_append ho)
        -- what is new in the store would have been the answer to a question
        cases hafter : (((Store.new loader defaultEncoding).after ops).step o).remembered? r with
        | none => rfl
        | some t =>
          obtain ⟨q, rfl, hrequest, hanswer⟩ := Store.remembered?_of_step hafter hnew
          rw [hencoding] at hrequest
          have hasked : Asked (ops ++ [.get q]) ops q :=
            asked_append_singleton.mpr (.inl ⟨rfl, rfl⟩)
          exact absurd hanswer (hunfound ops q hasked hrequest t)

/-- What is remembered is named, encoded and read as the request says, whose name is normal. -/
theorem cache_of_history (loader : Loader) (defaultEncoding : String) (ops : List Operation) :
    ∀ entry ∈ ((Store.new loader defaultEncoding).after ops).cache,
      Name.normalize entry.1.name = .ok entry.1.name ∧ entry.2.OfRequest entry.1 := by
  induction ops using List.reverseRecOn with
  | nil => exact nofun
  | append_singleton ops o ih =>
    rw [Store.after_append_singleton]
    cases o with
    | put name content => exact ih
    | clear => exact nofun
    | get q =>
      rw [Store.step]
      have hanswered := ((Store.new loader defaultEncoding).after ops).answered q
      generalize ((Store.new loader defaultEncoding).after ops).ask q = a at hanswered
      cases hanswered with
      | refused | remembered | unfound => exact ih
      | loaded hrequest hnew hload =>
        intro entry hentry
        rcases List.mem_append.mp hentry with hentry | hentry
        · exact ih entry hentry
        · cases List.mem_singleton.mp hentry
          exact ⟨Query.normal_of_request hrequest, ofRequest_of_load hload⟩

/-- Whatever has happened to a store, a template that it answers with is named, encoded and read as it
was asked for. -/
theorem ofRequest_of_answerAfter {q : Query} {t : Template}
    (hrequest : q.request defaultEncoding = .ok r)
    (h : answerAfter loader defaultEncoding ops q = .ok (some t)) : t.OfRequest r := by
  rw [← (loader_after loader defaultEncoding ops).2] at hrequest
  -- what is answered is remembered now, if it was not before
  obtain ⟨hremembered, -⟩ := Store.remembered?_of_found hrequest h
  rw [← Store.after_append_singleton] at hremembered
  obtain ⟨before, later, hcache, -⟩ := List.lookup_eq_some_iff.mp hremembered
  refine (cache_of_history loader defaultEncoding (ops ++ [.get q]) (r, t) ?_).2
  rw [hcache]
  exact List.mem_append_right before List.mem_cons_self

/-! ## Answers after operations -/

variable {q : Query}

/-- When a template was first found for the request, the answer is that of the sources then. -/
theorem answer_of_firstFound (hrequest : q.request defaultEncoding = .ok r)
    (h : FirstFound loader defaultEncoding ops r before) :
    answerAfter loader defaultEncoding ops q =
      (loader.after before).answer defaultEncoding q := by
  obtain ⟨t, ht, hload⟩ := (remembered_of_history loader defaultEncoding ops r).1 before h
  rw [← (loader_after loader defaultEncoding ops).2] at hrequest
  rw [answerAfter, Store.ask_of_remembered hrequest ht]
  rw [(loader_after loader defaultEncoding ops).2] at hrequest
  exact (Loader.answer_of_load hrequest hload).symm

/-- As long as none was found, it is that of the sources as they are. -/
theorem answer_of_unfound (hrequest : q.request defaultEncoding = .ok r)
    (h : Unfound loader defaultEncoding ops r) :
    answerAfter loader defaultEncoding ops q = (loader.after ops).answer defaultEncoding q := by
  have hnew := (remembered_of_history loader defaultEncoding ops r).2 h
  obtain ⟨hloader, hencoding⟩ := loader_after loader defaultEncoding ops
  have hanswer := Store.ask_of_new (hencoding.symm ▸ hrequest) hnew
  rw [hloader, hencoding] at hanswer
  exact hanswer

end

/-- **A store answers as its sources did** when a template was first found for the request of the
question, since everything was last forgotten, or as they do now where none was found since then;
every request has one of the two kinds of history. A name without a normal form is refused at all
times. An answer without a template leaves the store as it was. Whatever is remembered has a name in
normal form, and is named, encoded and read as the request says for which it is remembered. -/
theorem answers_of_history (loader : Loader) (defaultEncoding : String) (ops : List Operation)
    (q : Query) :
    (∀ x, q.request defaultEncoding = .error x →
      answerAfter loader defaultEncoding ops q = .error x) ∧
      (∀ r, q.request defaultEncoding = .ok r →
        (∀ before, FirstFound loader defaultEncoding ops r before →
          answerAfter loader defaultEncoding ops q =
            (loader.after before).answer defaultEncoding q) ∧
          (Unfound loader defaultEncoding ops r →
            answerAfter loader defaultEncoding ops q =
              (loader.after ops).answer defaultEncoding q) ∧
          (Unfound loader defaultEncoding ops r ∨
            ∃ before, FirstFound loader defaultEncoding ops r before)) ∧
      ((∀ t, answerAfter loader defaultEncoding ops q ≠ .ok (some t)) →
        (Store.new loader defaultEncoding).after (ops ++ [.get q]) =
          (Store.new loader defaultEncoding).after ops) ∧
      ∀ entry ∈ ((Store.new loader defaultEncoding).after ops).cache,
        Name.normalize entry.1.name = .ok entry.1.name ∧ entry.2.OfRequest entry.1 := by
  refine ⟨?_, ?_, ?_, cache_of_history loader defaultEncoding ops⟩
  · intro x hrequest
    rw [← (loader_after loader defaultEncoding ops).2] at hrequest
    exact congrArg Prod.fst (Store.ask_of_request_error hrequest)
  · intro r hrequest
    exact ⟨fun before hfirst => answer_of_firstFound hrequest hfirst,
      fun hunfound => answer_of_unfound hrequest hunfound,
      unfound_or_firstFound loader defaultEncoding ops r⟩
  · intro hanswer
    rw [Store.after_append_singleton]
    exact Store.ask_of_not_found hanswer

/-- The text `x` is asked for as `./a`, in no encoding, and replaced by `y`. -/
def replaced : List Operation :=
  [.put "a" (.ok [120]), .get ⟨"./a", some "", false, true⟩, .put "a" (.ok [121])]

/-- A text that was found is the answer after it was replaced, under another spelling of its name. -/
theorem answer_after_replacement :
    answerAfter .empty "utf-8" replaced ⟨"a", none, false, false⟩ =
      .ok (some (.raw "x" "a" "dict:a" (some "utf-8"))) := by
  have hunfound : Unfound .empty "utf-8" [.put "a" (.ok [120])] ⟨"a", "utf-8", false⟩ := by
    intro before q hasked
    have hput : Asked ([] ++ [.put "a" (.ok [120])]) before q := hasked
    rcases asked_append_singleton.mp hput with ⟨hget, -⟩ | ⟨-, hnil⟩
    · cases hget
    · exact absurd hnil (not_asked_nil before q)
  have hfirst : FirstFound .empty "utf-8" replaced ⟨"a", "utf-8", false⟩
      [.put "a" (.ok [120])] :=
    ⟨hunfound, ⟨"./a", some "", false, true⟩, .raw "x" "a" "dict:a" (some "utf-8"),
      ⟨[.put "a" (.ok [121])], rfl, by simp⟩, by decide +kernel, rfl⟩
  obtain ⟨-, hanswers, -, -⟩ :=
    answers_of_history .empty "utf-8" replaced ⟨"a", none, false, false⟩
  rw [(hanswers ⟨"a", "utf-8", false⟩ (by decide +kernel)).1 _ hfirst]
  rfl

end Stencil

import Stencil.Proofs.Template.RoundTrip

/-!
# Neighbouring texts joined

Where a comment stands between two texts, the elements of a source have texts that are neighbours,
and the canonical form does not show where one ends. Joining them gives the elements that the
canonical form can stand for: they have the same canonical form and no neighbouring texts. They are
read from it exactly when no marker begins in one text and ends in the next.

## Main definitions

* `Element.joined` and `Element.joinedAll` join neighbouring texts at every depth.
* `Element.textsAll` lists the texts at every depth.
* `Element.Seamless` says that no marker occurs in the texts once neighbours are joined.

## Main results

* `Element.canonicalAll_joinedAll` and `Element.allSeparated_joinedAll`: joining keeps the canonical
  form and leaves no neighbours.
* `parseTemplate_joined_iff`: the joined elements are read back exactly where the texts are
  seamless.
-/

namespace Stencil

namespace Element

/-- Puts an element in front of others: two texts that meet become one. -/
def attach : Element → List Element → List Element
  | text p s, text _ t :: es => text p (s ++ t) :: es
  | e, es => e :: es

mutual

/-- The element with neighbouring texts joined in its branches. -/
def joined : Element → Element
  | conditional p c body none => conditional p c (joinedAll body) none
  | conditional p c body (some otherwise) =>
    conditional p c (joinedAll body) (some (joinedAll otherwise))
  | e => e

/-- The elements with neighbouring texts joined at every depth. -/
def joinedAll : List Element → List Element
  | [] => []
  | e :: es => attach (joined e) (joinedAll es)

end

mutual

/-- The texts of an element at every depth. -/
def texts : Element → List String
  | text _ s => [s]
  | conditional _ _ body none => textsAll body
  | conditional _ _ body (some otherwise) => textsAll body ++ textsAll otherwise
  | _ => []

/-- The texts of a list of elements at every depth. -/
def textsAll : List Element → List String
  | [] => []
  | e :: es => texts e ++ textsAll es

end

/-- No marker begins in one text and ends in another that follows it. -/
def Seamless (es : List Element) : Prop := ∀ s ∈ textsAll (joinedAll es), Unmarked s.toList

/-- What attaching does: it joins two texts, or puts the element in front. -/
theorem attach_cases (e : Element) (es : List Element) :
    (∃ p q s t fs, e = text p s ∧ es = text q t :: fs ∧ attach e es = text p (s ++ t) :: fs) ∨
      attach e es = e :: es ∧ (e.isText = true → ∀ f ∈ es.head?, f.isText = false) := by
  unfold attach
  split
  · next p s q t fs => exact Or.inl ⟨p, q, s, t, fs, rfl, rfl, rfl⟩
  · next hmeet =>
    refine Or.inr ⟨rfl, ?_⟩
    intro he f hf
    obtain ⟨fs, rfl⟩ : ∃ fs, es = f :: fs := List.head?_eq_some_iff.mp hf
    cases e with
    | text p s =>
      cases f with
      | text q t => exact (hmeet p s q t fs rfl rfl).elim
      | _ => rfl
    | _ => cases he

/-! ## What joining keeps -/

theorem canonicalAll_attach (e : Element) (es : List Element) :
    canonicalAll (attach e es) = e.canonical ++ canonicalAll es := by
  rcases attach_cases e es with ⟨p, q, s, t, fs, rfl, rfl, h⟩ | ⟨h, -⟩
  · simp [h, canonicalAll, canonical, String.append_assoc]
  · rw [h, canonicalAll]

mutual

theorem canonical_joined (e : Element) : e.joined.canonical = e.canonical := by
  match e with
  | text p s => rfl
  | interpolation p v => rfl
  | assign p scope name v => rfl
  | inclusion p i => rfl
  | conditional p c body none => simp [joined, canonical, canonicalAll_joinedAll body]
  | conditional p c body (some otherwise) =>
    simp [joined, canonical, canonicalAll_joinedAll body, canonicalAll_joinedAll otherwise]

/-- Joining keeps the canonical form. -/
theorem canonicalAll_joinedAll (es : List Element) :
    canonicalAll (joinedAll es) = canonicalAll es := by
  match es with
  | [] => rfl
  | e :: es =>
    rw [joinedAll, canonicalAll_attach, canonical_joined e, canonicalAll_joinedAll es, canonicalAll]

end

theorem allSeparated_attach {e : Element} {es : List Element} (he : e.Separated)
    (hes : AllSeparated es) : AllSeparated (attach e es) := by
  rcases attach_cases e es with ⟨p, q, s, t, fs, rfl, rfl, h⟩ | ⟨h, hneighbour⟩
  · obtain ⟨-, hneighbour, hfs⟩ := hes
    rw [h]
    exact ⟨trivial, fun _ => hneighbour rfl, hfs⟩
  · rw [h]
    exact ⟨he, hneighbour, hes⟩

mutual

theorem separated_joined (e : Element) : e.joined.Separated := by
  match e with
  | text p s => trivial
  | interpolation p v => trivial
  | assign p scope name v => trivial
  | inclusion p i => trivial
  | conditional p c body none => exact allSeparated_joinedAll body
  | conditional p c body (some otherwise) =>
    exact ⟨allSeparated_joinedAll body, allSeparated_joinedAll otherwise⟩

/-- Joining leaves no neighbouring texts. -/
theorem allSeparated_joinedAll (es : List Element) : AllSeparated (joinedAll es) := by
  match es with
  | [] => trivial
  | e :: es => exact allSeparated_attach (separated_joined e) (allSeparated_joinedAll es)

end

/-! ## Markers in texts -/

/-- What joins two texts holds both of them. -/
theorem unmarked_of_attach {e : Element} {es : List Element}
    (h : ∀ u ∈ textsAll (attach e es), Unmarked u.toList) :
    ∀ u ∈ texts e ++ textsAll es, Unmarked u.toList := by
  rcases attach_cases e es with ⟨p, q, s, t, fs, rfl, rfl, hattach⟩ | ⟨hattach, -⟩
  · rw [hattach] at h
    have hjoined : Unmarked (s.toList ++ t.toList) := by
      have := h (s ++ t) (by simp [textsAll, texts])
      rwa [String.toList_append] at this
    intro u hu
    simp only [texts, textsAll, List.mem_append, List.mem_singleton] at hu
    rcases hu with rfl | rfl | hu
    · exact hjoined.of_infix (List.prefix_append _ _).isInfix
    · exact hjoined.of_infix (List.suffix_append _ _).isInfix
    · exact h u (by simp [textsAll, hu])
  · rwa [hattach, textsAll] at h

theorem allWellFormed_attach {e : Element} {es : List Element} (he : e.WellFormed)
    (hes : AllWellFormed es) (h : ∀ u ∈ textsAll (attach e es), Unmarked u.toList) :
    AllWellFormed (attach e es) := by
  rcases attach_cases e es with ⟨p, q, s, t, fs, rfl, rfl, hattach⟩ | ⟨hattach, -⟩
  · rw [hattach] at h ⊢
    refine ⟨⟨?_, h (s ++ t) (by simp [textsAll, texts])⟩, hes.2⟩
    intro hempty
    exact he.1 (String.append_eq_empty_iff.mp hempty).1
  · rw [hattach]
    exact ⟨he, hes⟩

mutual

theorem wellFormed_joined (e : Element) (he : e.WellFormed)
    (h : ∀ u ∈ texts e.joined, Unmarked u.toList) : e.joined.WellFormed := by
  match e with
  | text p s => exact he
  | interpolation p v => exact he
  | assign p scope name v => exact he
  | inclusion p i => exact he
  | conditional p c body none => exact ⟨he.1, allWellFormed_joinedAll body he.2 h⟩
  | conditional p c body (some otherwise) =>
    exact ⟨he.1,
      allWellFormed_joinedAll body he.2.1 fun u hu => h u (List.mem_append_left _ hu),
      allWellFormed_joinedAll otherwise he.2.2 fun u hu => h u (List.mem_append_right _ hu)⟩

/-- Where the joined texts hold no marker, the joined elements are well formed. -/
theorem allWellFormed_joinedAll (es : List Element) (hes : AllWellFormed es) (h : Seamless es) :
    AllWellFormed (joinedAll es) := by
  match es with
  | [] => trivial
  | e :: es =>
    -- the texts of a part occur within those of the whole, joined or not
    have hparts := unmarked_of_attach h
    exact allWellFormed_attach
      (wellFormed_joined e hes.1 fun u hu => hparts u (List.mem_append_left _ hu))
      (allWellFormed_joinedAll es hes.2 fun u hu => hparts u (List.mem_append_right _ hu)) h

end

mutual

theorem unmarked_texts (e : Element) (he : e.WellFormed) : ∀ u ∈ texts e, Unmarked u.toList := by
  match e with
  | text p s =>
    intro u hu
    rw [List.mem_singleton.mp hu]
    exact he.2
  | interpolation p v => nofun
  | assign p scope name v => nofun
  | inclusion p i => nofun
  | conditional p c body none => exact unmarked_textsAll body he.2
  | conditional p c body (some otherwise) =>
    intro u hu
    rcases List.mem_append.mp hu with hu | hu
    · exact unmarked_textsAll body he.2.1 u hu
    · exact unmarked_textsAll otherwise he.2.2 u hu

/-- The texts of well-formed elements hold no marker. -/
theorem unmarked_textsAll (es : List Element) (hes : AllWellFormed es) :
    ∀ u ∈ textsAll es, Unmarked u.toList := by
  match es with
  | [] => nofun
  | e :: es =>
    intro u hu
    rcases List.mem_append.mp hu with hu | hu
    · exact unmarked_texts e hes.1 u hu
    · exact unmarked_textsAll es hes.2 u hu

end

end Element

/-- **The joined elements are read from the canonical form exactly where the texts are
seamless.** -/
theorem parseTemplate_joined_iff {es : List Element} (hes : Element.AllWellFormed es)
    (name : String) :
    (∃ root, parseTemplate (Element.canonicalAll es) name = .ok root ∧
      Element.agreesAll root (Element.joinedAll es) = true) ↔ Element.Seamless es := by
  constructor
  · rintro ⟨root, hparse, hagrees⟩
    -- what is read holds no marker in its texts, and agrees with the joined elements
    have hroot := wellFormed_of_parseTemplate hparse
    exact Element.unmarked_textsAll _ (Element.allWellFormed_of_agreesAll hagrees hroot)
  -- the joined elements have the same canonical form, and are separated and well formed
  · intro hseamless
    obtain ⟨root, hparse, hagrees, -⟩ := parseTemplate_canonicalAll
      (Element.allWellFormed_joinedAll es hes hseamless) (Element.allSeparated_joinedAll es) name
    rw [Element.canonicalAll_joinedAll] at hparse
    exact ⟨root, hparse, hagrees⟩

end Stencil

import Stencil.Proofs.Template.WellFormed

/-!
# Elements without their places

Two elements agree exactly when they are the same once their places are taken away. What does not
look at places is therefore the same for elements that agree.

## Main definitions

* `Element.unplaced` and `Element.unplacedAll` take the places away.

## Main results

* `Element.agreesAll_iff`: agreement is equality without places.
* `Element.canonicalAll_of_agreesAll` and `Element.allWellFormed_of_agreesAll`: what agrees has the
  same canonical form, and is well formed if the other is.
-/

namespace Stencil.Element

mutual

/-- The element without its places. -/
def unplaced : Element → Element
  | text _ s => text .unknown s
  | interpolation _ e => interpolation .unknown e
  | conditional _ c body none => conditional .unknown c (unplacedAll body) none
  | conditional _ c body (some otherwise) =>
    conditional .unknown c (unplacedAll body) (some (unplacedAll otherwise))
  | assign _ scope name e => assign .unknown scope name e
  | inclusion _ i => inclusion .unknown i

/-- The elements without their places. -/
def unplacedAll : List Element → List Element
  | [] => []
  | e :: es => unplaced e :: unplacedAll es

end

mutual

/-- Agreement is equality without places. -/
theorem agrees_iff (e f : Element) : agrees e f = true ↔ e.unplaced = f.unplaced := by
  -- elements of different kinds neither agree nor are the same without their places
  rcases f with ⟨_, _⟩ | ⟨_, _⟩ | ⟨_, d, body', _ | otherwise'⟩ | ⟨_, _, _, _⟩ | ⟨_, _⟩ <;>
  match e with
  | text p s => simp [agrees, unplaced]
  | interpolation p v => simp [agrees, unplaced]
  | assign p scope name v => simp [agrees, unplaced, and_assoc]
  | inclusion p i => simp [agrees, unplaced]
  | conditional p c body none =>
    simp [agrees, unplaced, agreesAll_iff body]
  | conditional p c body (some otherwise) =>
    simp [agrees, unplaced, and_assoc, agreesAll_iff body, agreesAll_iff otherwise]

theorem agreesAll_iff (es fs : List Element) :
    agreesAll es fs = true ↔ unplacedAll es = unplacedAll fs := by
  match es, fs with
  | [], [] => simp [agreesAll]
  | [], f :: fs => simp [agreesAll, unplacedAll]
  | e :: es, [] => simp [agreesAll, unplacedAll]
  | e :: es, f :: fs =>
    simp only [agreesAll, unplacedAll, Bool.and_eq_true, List.cons.injEq]
    rw [agrees_iff e f, agreesAll_iff es fs]

end

mutual

theorem canonical_unplaced (e : Element) : e.unplaced.canonical = e.canonical := by
  match e with
  | text p s => rfl
  | interpolation p v => simp [unplaced, canonical]
  | assign p scope name v => simp [unplaced, canonical]
  | inclusion p i => simp [unplaced, canonical]
  | conditional p c body none => simp [unplaced, canonical, canonicalAll_unplacedAll body]
  | conditional p c body (some otherwise) =>
    simp [unplaced, canonical, canonicalAll_unplacedAll body, canonicalAll_unplacedAll otherwise]

theorem canonicalAll_unplacedAll (es : List Element) :
    canonicalAll (unplacedAll es) = canonicalAll es := by
  match es with
  | [] => rfl
  | e :: es =>
    simp [unplacedAll, canonicalAll, canonical_unplaced e, canonicalAll_unplacedAll es]

end

/-- Elements that agree have the same canonical form. -/
theorem canonicalAll_of_agreesAll {es fs : List Element} (h : agreesAll es fs = true) :
    canonicalAll es = canonicalAll fs := by
  rw [← canonicalAll_unplacedAll es, (agreesAll_iff es fs).mp h, canonicalAll_unplacedAll]

mutual

theorem wellFormed_unplaced (e : Element) : e.unplaced.WellFormed ↔ e.WellFormed := by
  match e with
  | text p s => simp [unplaced, WellFormed]
  | interpolation p v => simp [unplaced, WellFormed]
  | assign p scope name v => simp [unplaced, WellFormed]
  | inclusion p i => simp [unplaced, WellFormed]
  | conditional p c body none => simp [unplaced, WellFormed, allWellFormed_unplacedAll body]
  | conditional p c body (some otherwise) =>
    simp [unplaced, WellFormed, allWellFormed_unplacedAll body, allWellFormed_unplacedAll otherwise]

theorem allWellFormed_unplacedAll (es : List Element) :
    AllWellFormed (unplacedAll es) ↔ AllWellFormed es := by
  match es with
  | [] => rfl
  | e :: es =>
    simp [unplacedAll, AllWellFormed, wellFormed_unplaced e, allWellFormed_unplacedAll es]

end

/-- What agrees with well-formed elements is well formed. -/
theorem allWellFormed_of_agreesAll {es fs : List Element} (h : agreesAll es fs = true)
    (hes : AllWellFormed es) : AllWellFormed fs := by
  rw [← allWellFormed_unplacedAll, ← (agreesAll_iff es fs).mp h]
  exact (allWellFormed_unplacedAll es).mpr hes

end Stencil.Element

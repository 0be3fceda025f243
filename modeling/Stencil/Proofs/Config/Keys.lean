import Mathlib.Data.List.Induction
import Stencil.Proofs.Config.Loading

/-!
# The entries of a mapping

A mapping is loaded entry by entry, and the loaded entries are bound one after the other. None is
lost unless two keys become one. Keys that are different before they are loaded become one in two
ways: both stand for the same member of an enumeration, or one is an integer that is widened to the
number that the other one is, or is widened to.

## Main definitions

* `Schema.KeysMerge` says that two raw keys become one.

## Main results

* `Loaded.bindAll_eq_self_iff`: entries are all kept exactly when no key comes twice.
* `Schema.loadsKey_of_load`: a key is loaded as it is, widened, or as a member.
* `mapping_kept_iff`: a mapping keeps all of its entries, in their order, exactly when no two of its
  keys become one.
-/

namespace Stencil

/-! ## Building up a mapping -/

namespace Loaded

variable {entries : List (Loaded × Loaded)} {e : Loaded × Loaded} {key value : Loaded}

theorem bindAll_append_singleton (entries : List (Loaded × Loaded)) (e : Loaded × Loaded) :
    bindAll (entries ++ [e]) = bind e.1 e.2 (bindAll entries) := by
  simp [bindAll]

theorem mem_bind (h : e ∈ bind key value entries) :
    (e.1 = key ∨ ∃ f ∈ entries, e.1 = f.1) ∧ (e.2 = value ∨ ∃ f ∈ entries, e.2 = f.2) := by
  induction entries with
  | nil =>
    rw [bind, List.mem_singleton] at h
    subst h
    exact ⟨.inl rfl, .inl rfl⟩
  | cons f entries ih =>
    rw [bind] at h
    split at h
    · rcases List.mem_cons.mp h with rfl | h
      · exact ⟨.inr ⟨f, by simp, rfl⟩, .inl rfl⟩
      · exact ⟨.inr ⟨e, by simp [h], rfl⟩, .inr ⟨e, by simp [h], rfl⟩⟩
    · rcases List.mem_cons.mp h with rfl | h
      · exact ⟨.inr ⟨e, by simp, rfl⟩, .inr ⟨e, by simp, rfl⟩⟩
      · obtain ⟨hkey, hvalue⟩ := ih h
        refine ⟨hkey.imp_right ?_, hvalue.imp_right ?_⟩ <;>
        · rintro ⟨g, hg, heq⟩
          exact ⟨g, List.mem_cons_of_mem f hg, heq⟩

/-- The entries of a mapping that is built up have their keys and values from those that are bound.
-/
theorem mem_bindAll (h : e ∈ bindAll entries) :
    (∃ f ∈ entries, e.1 = f.1) ∧ ∃ f ∈ entries, e.2 = f.2 := by
  induction entries using List.reverseRecOn generalizing e with
  | nil => cases h
  | append_singleton entries f ih =>
    rw [bindAll_append_singleton] at h
    obtain ⟨hkey, hvalue⟩ := mem_bind h
    constructor
    · rcases hkey with hkey | ⟨g, hg, hkey⟩
      · exact ⟨f, by simp, hkey⟩
      · obtain ⟨⟨g', hg', heq⟩, -⟩ := ih hg
        exact ⟨g', by simp [hg'], hkey.trans heq⟩
    · rcases hvalue with hvalue | ⟨g, hg, hvalue⟩
      · exact ⟨f, by simp, hvalue⟩
      · obtain ⟨-, g', hg', heq⟩ := ih hg
        exact ⟨g', by simp [hg'], hvalue.trans heq⟩

/-- A key that no entry has is bound behind them. -/
theorem bind_of_new (h : ∀ f ∈ entries, key.sameKey f.1 = false) :
    bind key value entries = entries ++ [(key, value)] := by
  induction entries with
  | nil => rfl
  | cons f entries ih =>
    rw [bind, h f (by simp), ih fun g hg => h g (by simp [hg])]
    rfl

/-- A key that an entry has adds none. -/
theorem length_bind_of_bound (h : ∃ f ∈ entries, key.sameKey f.1 = true) :
    (bind key value entries).length = entries.length := by
  induction entries with
  | nil => simp at h
  | cons f entries ih =>
    rw [bind]
    split
    · rfl
    · next hf =>
      obtain ⟨g, hg, hsame⟩ := h
      rcases List.mem_cons.mp hg with rfl | hg
      · exact absurd hsame hf
      · rw [List.length_cons, List.length_cons, ih ⟨g, hg, hsame⟩]

theorem length_bind_le (key value : Loaded) (entries : List (Loaded × Loaded)) :
    (bind key value entries).length ≤ entries.length + 1 := by
  by_cases h : ∃ f ∈ entries, key.sameKey f.1 = true
  · rw [length_bind_of_bound h]
    omega
  · rw [bind_of_new (by simpa using h)]
    simp

/-- No key comes a second time. -/
def KeysApart (entries : List (Loaded × Loaded)) : Prop :=
  entries.Pairwise fun e f => f.1.sameKey e.1 = false

/-- Entries are all kept, or some are lost. The first key that comes a second time is lost whatever
comes behind it. -/
theorem bindAll_cases (entries : List (Loaded × Loaded)) :
    (KeysApart entries ∧ bindAll entries = entries) ∨
      (¬ KeysApart entries ∧ (bindAll entries).length < entries.length) := by
  -- from the end, where the entry stands that is bound last
  induction entries using List.reverseRecOn with
  | nil => exact .inl ⟨.nil, rfl⟩
  | append_singleton entries e ih =>
    rw [bindAll_append_singleton, KeysApart, List.pairwise_append]
    simp only [List.pairwise_singleton, List.mem_singleton, forall_eq, true_and]
    rcases ih with ⟨hapart, hkept⟩ | ⟨hnot, hlost⟩
    · rw [hkept]
      by_cases hnew : ∀ f ∈ entries, e.1.sameKey f.1 = false
      · exact .inl ⟨⟨hapart, hnew⟩, bind_of_new hnew⟩
      · refine .inr ⟨fun h => hnew h.2, ?_⟩
        rw [length_bind_of_bound (by simpa using hnew)]
        simp
    · -- one entry more does not make up for one that is lost
      refine .inr ⟨fun h => hnot h.1, ?_⟩
      have hle := length_bind_le e.1 e.2 (bindAll entries)
      simp only [List.length_append, List.length_singleton]
      omega

/-- **Entries are all kept exactly when no key comes twice.** -/
theorem bindAll_eq_self_iff : bindAll entries = entries ↔ KeysApart entries := by
  rcases bindAll_cases entries with ⟨hapart, hkept⟩ | ⟨hnot, hlost⟩
  · exact iff_of_true hkept hapart
  · refine iff_of_false (fun h => ?_) hnot
    rw [h] at hlost
    exact Nat.lt_irrefl _ hlost

end Loaded

namespace Schema

/-! ## Keys -/

/-- An integer is widened to a binary number. -/
inductive Widens : Value → Value → Prop
  | mk {n : Int} {x : Binary64} (h : Binary64.ofInt? n = some x) :
      Widens (.int n) (.number (.binary x))

/-- How a key is loaded under a schema. -/
inductive LoadsKey (s : Schema) : Value → Loaded → Prop
  | kept {v : Value} : LoadsKey s v (.raw v)
  | widened {v w : Value} (hs : real.Occurs s) (h : Widens v w) : LoadsKey s v (.raw w)
  | member {v : Value} {e m : String} {members : List (String × Value)}
      (hs : (enumeration e members).Occurs s) : LoadsKey s v (.member e m)

/-- Two raw keys become one: they stand for the same member of an enumeration, or are loaded as
equal numbers after an integer is widened. -/
inductive KeysMerge (path : String) (k : Schema) (a b : Value) : Prop
  | member {e m : String} (ha : k.load (keyPath path) a = .ok (.member e m))
      (hb : k.load (keyPath path) b = .ok (.member e m))
  | widened {v w : Value} (ha : k.load (keyPath path) a = .ok (.raw v))
      (hb : k.load (keyPath path) b = .ok (.raw w)) (h : Widens a v ∨ Widens b w)
      (hsame : w.same v = true)

/-- A schema may load a key as something else: an integer as a binary number, or a name or a value
as a member. -/
def ChangesKeys : Schema → Prop
  | real => True
  | enumeration _ _ => True
  | _ => False

section

variable {path : String} {s t k v : Schema} {a b : Value} {x y : Loaded}

theorem LoadsKey.of_mem_children (ht : t ∈ s.children) (h : LoadsKey t a x) : LoadsKey s a x := by
  cases h with
  | kept => exact .kept
  | widened hs h => exact .widened (hs.tail ht) h
  | member hs => exact .member (hs.tail ht)

/-- A key is loaded as it is, or widened, or as a member. -/
theorem loadsKey_of_load (h : s.load path a = .ok x) (hkey : x.isKey = true) : LoadsKey s a x := by
  induction s using Schema.induction generalizing path a x with
  | step s ih =>
    cases load_eq_ok_iff.mp h with
    | any | text | integer | real | boolean | null | literal => exact .kept
    | widened hn => exact .widened .refl ⟨hn⟩
    | member => exact .member .refl
    | annotated h => exact .of_mem_children (.head _) (ih _ (.head _) h hkey)
    | union hs h =>
      have hmem := List.mem_of_getElem? hs
      exact .of_mem_children hmem (ih _ hmem h hkey)
    | list | tuple | dict | record => cases hkey

/-- Keys that are different become the same exactly when they become one in one of these ways. -/
theorem sameKey_iff_keysMerge (hx : k.load (keyPath path) a = .ok x) (hxkey : x.isKey = true)
    (hy : k.load (keyPath path) b = .ok y) (hykey : y.isKey = true) (hapart : b.same a = false) :
    y.sameKey x = true ↔ KeysMerge path k a b := by
  constructor
  · intro hsame
    cases loadsKey_of_load hx hxkey with
    | kept =>
      cases loadsKey_of_load hy hykey with
      | kept =>
        -- both are what they were, and they were apart
        exact absurd hsame (by rw [Loaded.sameKey, hapart]; simp)
      | widened _ h => exact .widened hx hy (.inr h) hsame
      | member => cases hsame
    | widened _ h =>
      cases loadsKey_of_load hy hykey with
      | kept | widened => exact .widened hx hy (.inl h) hsame
      | member => cases hsame
    | member =>
      cases loadsKey_of_load hy hykey with
      | kept | widened => cases hsame
      | member =>
        simp only [Loaded.sameKey, Bool.and_eq_true, beq_iff_eq] at hsame
        obtain ⟨rfl, rfl⟩ := hsame
        exact .member hx hy
  · intro h
    cases h with
    | member ha hb =>
      cases hx.symm.trans ha
      cases hy.symm.trans hb
      simp [Loaded.sameKey]
    | widened ha hb _ hsame =>
      cases hx.symm.trans ha
      cases hy.symm.trans hb
      exact hsame

/-- Under a key schema that changes no keys, none become one. -/
theorem not_keysMerge (hk : k.Everywhere fun t => ¬ t.ChangesKeys) : ¬ KeysMerge path k a b := by
  intro h
  cases h with
  | member ha =>
    cases loadsKey_of_load ha rfl with
    | member hs => exact hk _ hs trivial
  | widened ha hb h =>
    rcases h with ⟨⟨hn⟩⟩ | ⟨⟨hn⟩⟩
    · cases loadsKey_of_load ha rfl with
      | widened hs => exact hk _ hs trivial
    · cases loadsKey_of_load hb rfl with
      | widened hs => exact hk _ hs trivial

/-! ## Mappings -/

/-- The loaded keys are apart exactly when no two of the raw keys become one. -/
theorem keysApart_iff {entries : List (Value × Value)} {loaded : List (Loaded × Loaded)}
    (h : List.Forall₂ (LoadsEntry path k v) entries loaded)
    (hapart : entries.Pairwise fun e f => f.1.same e.1 = false) :
    Loaded.KeysApart loaded ↔ entries.Pairwise fun e f => ¬ KeysMerge path k e.1 f.1 := by
  have hlength := h.length_eq
  simp only [Loaded.KeysApart, List.pairwise_iff_getElem, hlength] at hapart ⊢
  refine forall₄_congr fun i j hi hj => forall_congr' fun hij => ?_
  have hfirst := h.get (hlength ▸ hi) hi
  have hsecond := h.get (hlength ▸ hj) hj
  have hiff := sameKey_iff_keysMerge hfirst.key hfirst.isKey hsecond.key hsecond.isKey
    (hapart i j hi hj hij)
  exact Bool.eq_false_iff.trans (not_congr hiff)

end

end Schema

/-- **A mapping keeps all of its entries, in their order, exactly when no two of its keys become
one**; otherwise it has fewer. The keys of a mapping are apart from one another before they are
loaded. None become one when neither binary numbers nor enumerations occur in the schema of keys. -/
theorem mapping_kept_iff {path : String} {k v : Schema} {entries : List (Value × Value)}
    {x : Loaded} (hapart : entries.Pairwise fun e f => f.1.same e.1 = false)
    (hload : (Schema.dict k v).load path (.dict entries) = .ok x) :
    ∃ loaded kept, List.Forall₂ (Schema.LoadsEntry path k v) entries loaded ∧ x = .dict kept ∧
      (kept = loaded ↔ entries.Pairwise fun e f => ¬ Schema.KeysMerge path k e.1 f.1) ∧
      (kept ≠ loaded → kept.length < entries.length) ∧
      ((k.Everywhere fun t => ¬ t.ChangesKeys) → kept = loaded) := by
  have hgives := Schema.load_eq_ok_iff.mp hload
  cases hgives with
  | @dict _ _ _ loaded h =>
    have hiff : Loaded.bindAll loaded = loaded ↔ _ :=
      Loaded.bindAll_eq_self_iff.trans (Schema.keysApart_iff h hapart)
    refine ⟨loaded, _, h, rfl, hiff, fun hlost => ?_, fun hk => hiff.mpr ?_⟩
    · rcases Loaded.bindAll_cases loaded with ⟨-, hkept⟩ | ⟨-, hfewer⟩
      · exact absurd hkept hlost
      · rwa [h.length_eq]
    · exact hapart.imp fun _ => Schema.not_keysMerge hk

/-- A schema of colors. -/
def colorSchema : Schema :=
  .enumeration "Color" [("RED", .str "red"), ("BLUE", .str "blue")]

/-- A color that is given by its name, and another one that is given by its value. -/
def twoColors : List (Value × Value) :=
  [(.str "RED", .int 1), (.str "blue", .int 2)]

/-- What they are loaded as. -/
def loadedColors : List (Loaded × Loaded) :=
  [(.member "Color" "RED", .raw (.int 1)), (.member "Color" "BLUE", .raw (.int 2))]

/-- Two colors are kept. -/
theorem two_colors_kept :
    (twoColors.Pairwise fun e f => f.1.same e.1 = false) ∧
      (Schema.dict colorSchema .integer).load "$" (.dict twoColors) = .ok (.dict loadedColors) ∧
      List.Forall₂ (Schema.LoadsEntry "$" colorSchema .integer) twoColors loadedColors := by
  have hapart : twoColors.Pairwise fun e f => f.1.same e.1 = false := by
    simp [twoColors, Value.same]
  have hload : (Schema.dict colorSchema .integer).load "$" (.dict twoColors) =
      .ok (.dict loadedColors) := by
    with_unfolding_all rfl
  obtain ⟨loaded, kept, hentries, ⟨⟩, -, hfewer, -⟩ := mapping_kept_iff hapart hload
  -- as many entries as before, so none is lost
  have hkept : loadedColors = loaded := by
    by_contra hlost
    exact absurd (hfewer hlost) (by decide)
  exact ⟨hapart, hload, hkept ▸ hentries⟩

/-- One color, given by its name and by its value. -/
def oneColorTwice : List (Value × Value) :=
  [(.str "RED", .int 1), (.str "red", .int 2)]

/-- Of a color that is given twice one entry is left, and not what the two are loaded as. -/
theorem one_color_merged :
    (oneColorTwice.Pairwise fun e f => f.1.same e.1 = false) ∧
      (Schema.dict colorSchema .integer).load "$" (.dict oneColorTwice) =
        .ok (.dict [(.member "Color" "RED", .raw (.int 2))]) ∧
      ¬ ∃ loaded, List.Forall₂ (Schema.LoadsEntry "$" colorSchema .integer) oneColorTwice loaded ∧
        (Schema.dict colorSchema .integer).load "$" (.dict oneColorTwice) = .ok (.dict loaded) := by
  have hload : (Schema.dict colorSchema .integer).load "$" (.dict oneColorTwice) =
      .ok (.dict [(.member "Color" "RED", .raw (.int 2))]) := by
    with_unfolding_all rfl
  refine ⟨by simp [oneColorTwice, Value.same], hload, ?_⟩
  rintro ⟨loaded, hentries, h⟩
  cases hload.symm.trans h
  cases hentries.length_eq

end Stencil

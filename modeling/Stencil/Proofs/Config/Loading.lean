import Mathlib.Data.List.Forall2
import Mathlib.Logic.Relation
import Stencil.Config.Loading
import Stencil.Proofs.Outcome

/-!
# Loading under each kind of schema

A raw value is loaded under a schema in one way for each kind of schema, in terms of what the
schemas that it is made of do with the parts of the value. Whatever is said of loading at every
depth is said by these steps and by induction over schemas.

## Main definitions

* `Site` is a raw value that is to be loaded under a schema, with the path to it.
* `Schema.Occurs` says that a schema is inside another one, `Schema.Everywhere` that it has a
  property
  with all that are.
* `Schema.Gives` lists how a schema gives a loaded value.

## Main results

* `Schema.induction`: what a schema inherits from those that it is made of, all schemas have.
* `Schema.loadFirst_eq_iff`: a union loads as its first option that does not refuse the value.
* `Schema.load_eq_ok_iff`: a loaded value comes about in one of the listed ways.
-/

namespace Stencil

/-! ## Computations over a list -/

section

variable {ε α β : Type} {f : α → Except ε β} {l : List α}

/-- Computations over a list succeed when each of them does. -/
theorem mapM_eq_ok {ys : List β} :
    l.mapM f = .ok ys ↔ List.Forall₂ (fun a y => f a = .ok y) l ys := by
  induction l generalizing ys with
  | nil => cases ys <;> simp [pure, Except.pure]
  | cons a l ih =>
    simp only [List.mapM_cons, bind_eq_ok, ih, List.forall₂_cons_left_iff]
    constructor
    · rintro ⟨y, hy, ys', hys, h⟩
      cases h
      exact ⟨y, ys', hy, hys, rfl⟩
    · rintro ⟨y, ys', hy, hys, rfl⟩
      exact ⟨y, hy, ys', hys, rfl⟩

/-- They fail as the first of them that fails. -/
theorem mapM_eq_error {e : ε} :
    l.mapM f = .error e ↔
      ∃ (i : Nat) (a : α), l[i]? = some a ∧ f a = .error e ∧
        ∀ j < i, ∀ b, l[j]? = some b → ∃ y, f b = .ok y := by
  induction l with
  | nil => simp [pure, Except.pure]
  | cons a l ih =>
    simp only [List.mapM_cons, bind_eq_error, ih]
    constructor
    · rintro (h | ⟨y, hy, ⟨i, b, hb, he, hbefore⟩ | ⟨ys, -, h⟩⟩)
      · exact ⟨0, a, rfl, h, by omega⟩
      · refine ⟨i + 1, b, hb, he, fun j hj c hc => ?_⟩
        cases j with
        | zero =>
          cases hc
          exact ⟨y, hy⟩
        | succ j => exact hbefore j (by omega) c hc
      · cases h
    · rintro ⟨i, b, hb, he, hbefore⟩
      cases i with
      | zero =>
        cases hb
        exact .inl he
      | succ i =>
        obtain ⟨y, hy⟩ := hbefore 0 (by omega) a rfl
        exact .inr ⟨y, hy, .inl ⟨i, b, hb, he, fun j hj c hc => hbefore (j + 1) (by omega) c hc⟩⟩

end

section

variable {α β : Type} {R : α → β → Prop} {l : List α} {ys : List β}

/-- Lists are related when they are as long as one another and related place by place. -/
theorem forall₂_iff_getElem? :
    List.Forall₂ R l ys ↔ ys.length = l.length ∧
      ∀ (i : Nat) a y, l[i]? = some a → ys[i]? = some y → R a y := by
  rw [List.forall₂_iff_get, eq_comm]
  refine and_congr_right fun _ => ⟨fun h i a y ha hy => ?_, fun h i hi hj => ?_⟩
  · obtain ⟨hi, rfl⟩ := List.getElem?_eq_some_iff.mp ha
    obtain ⟨hj, rfl⟩ := List.getElem?_eq_some_iff.mp hy
    exact h i hi hj
  · exact h i _ _ (List.getElem?_eq_getElem hi) (List.getElem?_eq_getElem hj)

theorem forall₂_getElem? (h : List.Forall₂ R l ys) {i : Nat} {a : α} {y : β} (ha : l[i]? = some a)
    (hy : ys[i]? = some y) : R a y :=
  (forall₂_iff_getElem?.mp h).2 i a y ha hy

theorem exists_of_forall₂ (h : List.Forall₂ R l ys) {y : β} (hy : y ∈ ys) : ∃ a ∈ l, R a y := by
  induction h with
  | nil => cases hy
  | @cons a b l ys hab _ ih =>
    rcases List.mem_cons.mp hy with rfl | hy
    · exact ⟨a, by simp, hab⟩
    · obtain ⟨a', ha', h⟩ := ih hy
      exact ⟨a', by simp [ha'], h⟩

end

/-! ## Sites -/

/-- A raw value that is to be loaded under a schema, and the path to it. -/
structure Site where
  path : String
  schema : Schema
  raw : Value

namespace Site

/-- What loading ends in at a site. -/
def load (a : Site) : Except LoadFault Loaded :=
  a.schema.load a.path a.raw

/-- The value is loaded. -/
def Loads (a : Site) : Prop :=
  ∃ x, a.load = .ok x

/-- The value does not fit the schema. -/
def Refuses (a : Site) : Prop :=
  ∃ m, a.load = .error (.mismatch m)

end Site

namespace Schema

/-! ## Schemas inside schemas -/

/-- The schemas that a schema is made of. -/
def children : Schema → List Schema
  | annotated s => [s]
  | list s => [s]
  | tuple s => [s]
  | dict k v => [k, v]
  | union options => options
  | recordWith _ fields => fields.map (·.2.1)
  | _ => []

/-- A schema occurs in another one, at any depth. -/
def Occurs : Schema → Schema → Prop :=
  Relation.ReflTransGen fun t s => t ∈ s.children

/-- A schema and all that occur in it have a property. -/
def Everywhere (P : Schema → Prop) (s : Schema) : Prop :=
  ∀ t : Schema, t.Occurs s → P t

theorem sizeOf_lt_of_mem_children {s t : Schema} (h : t ∈ s.children) : sizeOf t < sizeOf s := by
  cases s with
  | annotated | list | tuple | dict =>
    simp only [children, List.mem_cons, List.not_mem_nil, or_false] at h
    rcases h with rfl | rfl <;> simp +arith
  | union options =>
    have hlt : sizeOf t < sizeOf options := List.sizeOf_lt_of_mem h
    simp only [union.sizeOf_spec]
    omega
  | recordWith name fields =>
    obtain ⟨⟨field, s, fallback⟩, hf, rfl⟩ := List.mem_map.mp h
    have hlt := List.sizeOf_lt_of_mem hf
    simp only [recordWith.sizeOf_spec, Prod.mk.sizeOf_spec] at hlt ⊢
    omega
  | _ => cases h

/-- **Induction over schemas**: what a schema has when all that it is made of have it, all schemas
have. -/
theorem induction {P : Schema → Prop} (step : ∀ s, (∀ t ∈ s.children, P t) → P s) (s : Schema) :
    P s :=
  step s fun t _ => induction step t
termination_by sizeOf s
decreasing_by exact sizeOf_lt_of_mem_children ‹_›

section

variable {P : Schema → Prop} {s t : Schema}

theorem everywhere_iff : s.Everywhere P ↔ P s ∧ ∀ t ∈ s.children, t.Everywhere P := by
  constructor
  · exact fun h => ⟨h s .refl, fun t ht u hu => h u (hu.tail ht)⟩
  · rintro ⟨hs, hinside⟩ t ht
    rcases Relation.ReflTransGen.cases_tail ht with rfl | ⟨u, hu, hchild⟩
    · exact hs
    · exact hinside u hchild t hu

theorem Everywhere.of_occurs (h : s.Everywhere P) (ht : t.Occurs s) : t.Everywhere P :=
  fun u hu => h u (hu.trans ht)

theorem Everywhere.of_mem_children (h : s.Everywhere P) (ht : t ∈ s.children) : t.Everywhere P :=
  h.of_occurs (.single ht)

theorem everywhere_of_leaf (hleaf : s.children = []) (h : P s) : s.Everywhere P := by
  rw [everywhere_iff, hleaf]
  simp [h]

@[simp] theorem everywhere_dict {k v : Schema} :
    (dict k v).Everywhere P ↔ P (dict k v) ∧ k.Everywhere P ∧ v.Everywhere P := by
  rw [everywhere_iff]
  simp [children]

@[simp] theorem everywhere_union {options : List Schema} :
    (union options).Everywhere P ↔ P (union options) ∧ ∀ t ∈ options, t.Everywhere P :=
  everywhere_iff

@[simp] theorem everywhere_recordWith {name : String}
    {fields : List (String × Schema × Option Loaded)} :
    (recordWith name fields).Everywhere P ↔
      P (recordWith name fields) ∧ ∀ f ∈ fields, f.2.1.Everywhere P := by
  rw [everywhere_iff, children, List.forall_mem_map]

end

/-! ## Unions -/

section

variable {path : String} {v : Value} {failed : List Mismatch} {s : Schema} {options : List Schema}

theorem load_null_of_ne (h : v ≠ .null) :
    null.load path v = .error (.mismatch (.notNull path v.typeName)) := by
  rw [load]
  exact h

theorem loadFirst_null_of_ne (h : v ≠ .null) :
    loadFirst path v failed (.null :: options) = loadFirst path v failed options := by
  rw [loadFirst]
  exact h

/-- An option that does not refuse the value decides. -/
theorem loadFirst_cons_of_settles (h : ¬ Site.Refuses ⟨path, s, v⟩) :
    loadFirst path v failed (s :: options) = s.load path v := by
  by_cases hs : s = .null
  · subst hs
    by_cases hv : v = .null
    · subst hv
      rw [loadFirst, load]
    · exact absurd ⟨_, load_null_of_ne hv⟩ h
  · rw [loadFirst]
    · cases hload : s.load path v with
      | ok x => rfl
      | error fault =>
        cases fault with
        | mismatch m => exact absurd ⟨m, hload⟩ h
        | integerTooLarge | unusableKey | emptyEnumeration => rfl
    · exact hs

/-- An option that refuses the value leaves it to those behind. -/
theorem loadFirst_cons_of_refuses (failed : List Mismatch) (options : List Schema)
    (h : Site.Refuses ⟨path, s, v⟩) :
    ∃ failed', loadFirst path v failed (s :: options) = loadFirst path v failed' options := by
  obtain ⟨m, hm⟩ : ∃ m, s.load path v = .error (.mismatch m) := h
  by_cases hs : s = .null
  · subst hs
    have hv : v ≠ .null := by
      rintro rfl
      rw [load] at hm
      cases hm
    exact ⟨failed, loadFirst_null_of_ne hv⟩
  · refine ⟨failed ++ [m], ?_⟩
    rw [loadFirst]
    · rw [hm]
    · exact hs

/-- **A union loads as its first option that does not refuse the value.** -/
theorem loadFirst_eq_iff {r : Except LoadFault Loaded} (hr : ∀ m, r ≠ .error (.mismatch m)) :
    loadFirst path v failed options = r ↔
      ∃ (i : Nat) (s : Schema), options[i]? = some s ∧ s.load path v = r ∧
        ∀ j < i, ∀ t, options[j]? = some t → Site.Refuses ⟨path, t, v⟩ := by
  induction options generalizing failed with
  | nil =>
    rw [loadFirst]
    simp [(hr _).symm]
  | cons s options ih =>
    by_cases h : Site.Refuses ⟨path, s, v⟩
    · obtain ⟨failed', hfailed⟩ := loadFirst_cons_of_refuses failed options h
      rw [hfailed, ih]
      constructor
      · rintro ⟨i, t, ht, hload, hbefore⟩
        refine ⟨i + 1, t, ht, hload, fun j hj u hu => ?_⟩
        cases j with
        | zero =>
          cases hu
          exact h
        | succ j => exact hbefore j (by omega) u hu
      · rintro ⟨i, t, ht, hload, hbefore⟩
        cases i with
        | zero =>
          cases ht
          obtain ⟨m, hm⟩ := h
          exact absurd (hload.symm.trans hm) (hr m)
        | succ i => exact ⟨i, t, ht, hload, fun j hj u hu => hbefore (j + 1) (by omega) u hu⟩
    · -- no option behind this one is the first
      rw [loadFirst_cons_of_settles h]
      constructor
      · exact fun hload => ⟨0, s, rfl, hload, by omega⟩
      · rintro ⟨i, t, ht, hload, hbefore⟩
        cases i with
        | zero =>
          cases ht
          exact hload
        | succ i => exact absurd (hbefore 0 (by omega) s rfl) h

theorem loadFirst_eq_ok_iff {x : Loaded} :
    loadFirst path v failed options = .ok x ↔
      ∃ (i : Nat) (s : Schema), options[i]? = some s ∧ s.load path v = .ok x ∧
        ∀ j < i, ∀ t, options[j]? = some t → Site.Refuses ⟨path, t, v⟩ :=
  loadFirst_eq_iff fun _ => nofun

end

/-! ## How a schema gives a loaded value -/

/-- The items of a list are loaded one by one. -/
structure LoadsItems (path : String) (s : Schema) (vs : List Value) (xs : List Loaded) : Prop where
  length : xs.length = vs.length
  item (i : Nat) (w : Value) (y : Loaded) (hw : vs[i]? = some w) (hy : xs[i]? = some y) :
    s.load (itemPath path i) w = .ok y

/-- An entry of a mapping is loaded, and its key can be one. -/
structure LoadsEntry (path : String) (k v : Schema) (e : Value × Value) (l : Loaded × Loaded) :
    Prop where
  key : k.load (keyPath path) e.1 = .ok l.1
  value : v.load (valuePath path l.1) e.2 = .ok l.2
  isKey : l.1.isKey = true

/-- A field of a record is loaded from the entries of a raw mapping, or left to its fallback. -/
inductive LoadsField (path : String) (entries : List (Value × Value)) :
    String × Schema × Option Loaded → String × Loaded → Prop
  | written {name : String} {s : Schema} {fallback : Option Loaded} {w : Value} {y : Loaded}
      (hw : Value.lookup name entries = some w) (h : s.load (fieldPath path name) w = .ok y) :
      LoadsField path entries (name, s, fallback) (name, y)
  | left {name : String} {s : Schema} {y : Loaded} (hw : Value.lookup name entries = none) :
      LoadsField path entries (name, s, some y) (name, y)

/-- How a schema gives a loaded value, in terms of the schemas that it is made of. -/
inductive Gives (path : String) : Schema → Value → Loaded → Prop
  | any {v : Value} : Gives path .any v (.raw v)
  | text {s : String} : Gives path .text (.str s) (.raw (.str s))
  | integer {n : Int} : Gives path .integer (.int n) (.raw (.int n))
  | real {x : Binary64} : Gives path .real (.number (.binary x)) (.raw (.number (.binary x)))
  | widened {n : Int} {x : Binary64} (h : Binary64.ofInt? n = some x) :
      Gives path .real (.int n) (.raw (.number (.binary x)))
  | boolean {b : Bool} : Gives path .boolean (.bool b) (.raw (.bool b))
  | null : Gives path .null .null (.raw .null)
  | literal {values : List Value} {v : Value} (h : values.any v.same = true) :
      Gives path (.literal values) v (.raw v)
  | annotated {s : Schema} {v : Value} {x : Loaded} (h : s.load path v = .ok x) :
      Gives path (.annotated s) v x
  | member {name m : String} {members : List (String × Value)} {v : Value}
      (h : memberOf? members v = some m) : Gives path (.enumeration name members) v (.member name m)
  | list {s : Schema} {vs : List Value} {xs : List Loaded} (h : LoadsItems path s vs xs) :
      Gives path (.list s) (.list vs) (.list xs)
  | tuple {s : Schema} {vs : List Value} {xs : List Loaded} (h : LoadsItems path s vs xs) :
      Gives path (.tuple s) (.list vs) (.tuple xs)
  | dict {k v : Schema} {entries : List (Value × Value)} {loaded : List (Loaded × Loaded)}
      (h : List.Forall₂ (LoadsEntry path k v) entries loaded) :
      Gives path (.dict k v) (.dict entries) (.dict (Loaded.bindAll loaded))
  | union {options : List Schema} {s : Schema} {v : Value} {x : Loaded} {i : Nat}
      (hs : options[i]? = some s) (h : s.load path v = .ok x)
      (hbefore : ∀ j < i, ∀ t, options[j]? = some t → Site.Refuses ⟨path, t, v⟩) :
      Gives path (.union options) v x
  | record {name : String} {fields : List (String × Schema × Option Loaded)} {v : Value}
      {entries : List (Value × Value)} {xs : List (String × Loaded)}
      (hv : recordEntries path name v = .ok entries)
      (hknown : unknownKeys (fields.map (·.1)) entries = [])
      (h : List.Forall₂ (LoadsField path entries) fields xs) :
      Gives path (.recordWith name fields) v (.record name xs)

section

variable {path : String} {s k v : Schema} {raw : Value} {x : Loaded}

theorem loadItems_eq_ok_iff {vs : List Value} {xs : List Loaded} :
    loadItems (fun p w => s.load p w) path vs = .ok xs ↔ LoadsItems path s vs xs := by
  rw [loadItems, mapM_eq_ok, forall₂_iff_getElem?]
  constructor
  · rintro ⟨hlength, h⟩
    refine ⟨by simpa using hlength, fun i w y hw hy => ?_⟩
    exact h i (w, i) y (by simp [hw]) hy
  · rintro ⟨hlength, h⟩
    refine ⟨by simpa using hlength, fun i e y he hy => ?_⟩
    obtain ⟨w, hw, rfl⟩ : ∃ w, vs[i]? = some w ∧ (w, i) = e := by simpa using he
    exact h i w y hw hy

theorem loadEntry_eq_ok_iff {e : Value × Value} {l : Loaded × Loaded} :
    loadEntry (fun p w => k.load p w) (fun p w => v.load p w) path e = .ok l ↔
      LoadsEntry path k v e l := by
  simp only [loadEntry, bind_eq_ok]
  constructor
  · rintro ⟨key, hkey, value, hvalue, h⟩
    split at h
    · next hisKey =>
      cases h
      exact ⟨hkey, hvalue, hisKey⟩
    · cases h
  · rintro ⟨hkey, hvalue, hisKey⟩
    exact ⟨l.1, hkey, l.2, hvalue, if_pos hisKey⟩

theorem loadField_eq_ok_iff {entries : List (Value × Value)} {f : String × Schema × Option Loaded}
    {y : String × Loaded} :
    (loadField (fun p w => f.2.1.load p w) path entries f.1 f.2.2).map (f.1, ·) = .ok y ↔
      LoadsField path entries f y := by
  obtain ⟨name, s, fallback⟩ := f
  simp only [map_eq_ok, loadField]
  constructor
  · rintro ⟨x, h, rfl⟩
    split at h
    · next hw => exact .written hw h
    · next hw =>
      cases h
      exact .left hw
    · cases h
  · intro h
    cases h with
    | @written _ _ _ _ x hw h => exact ⟨x, by rw [hw]; exact h, rfl⟩
    | @left _ _ x hw => exact ⟨x, by rw [hw], rfl⟩

theorem loadFields_eq_mapM (path : String) (entries : List (Value × Value))
    (fields : List (String × Schema × Option Loaded)) :
    loadFields path entries fields = fields.mapM fun f =>
      (loadField (fun p w => f.2.1.load p w) path entries f.1 f.2.2).map (f.1, ·) := by
  induction fields with
  | nil => rfl
  | cons f fields ih =>
    obtain ⟨name, s, fallback⟩ := f
    rw [loadFields, ih, List.mapM_cons]
    cases loadField (fun p w => s.load p w) path entries name fallback <;> rfl

theorem loadFields_eq_ok_iff {entries : List (Value × Value)}
    {fields : List (String × Schema × Option Loaded)} {xs : List (String × Loaded)} :
    loadFields path entries fields = .ok xs ↔ List.Forall₂ (LoadsField path entries) fields xs := by
  simp only [loadFields_eq_mapM, mapM_eq_ok, loadField_eq_ok_iff]

theorem loadPlain_eq_ok_iff {expected : String} {accepts : Value → Bool} :
    loadPlain path expected accepts raw = .ok x ↔ accepts raw = true ∧ x = .raw raw := by
  unfold loadPlain
  split <;> simp [*, eq_comm]

theorem itemsOf_eq_ok_iff {vs : List Value} : itemsOf path raw = .ok vs ↔ raw = .list vs := by
  cases raw <;> simp [itemsOf]

/-- A list or a tuple gathers its items. -/
theorem load_items_eq_ok_iff {gather : List Loaded → Loaded} :
    (do return gather (← loadItems (fun p w => s.load p w) path (← itemsOf path raw))) = .ok x ↔
      ∃ vs xs, raw = .list vs ∧ LoadsItems path s vs xs ∧ x = gather xs := by
  simp only [bind_eq_ok, itemsOf_eq_ok_iff, loadItems_eq_ok_iff]
  constructor
  · rintro ⟨vs, rfl, xs, hxs, ⟨⟩⟩
    exact ⟨vs, xs, rfl, hxs, rfl⟩
  · rintro ⟨vs, xs, rfl, hxs, rfl⟩
    exact ⟨vs, rfl, xs, hxs, rfl⟩

/-- A mapping binds its entries. -/
theorem load_dict_eq_ok_iff :
    (dict k v).load path raw = .ok x ↔
      ∃ entries loaded, raw = .dict entries ∧ List.Forall₂ (LoadsEntry path k v) entries loaded ∧
        x = .dict (Loaded.bindAll loaded) := by
  cases raw with
  | dict entries =>
    rw [load]
    simp only [bind_eq_ok, mapM_eq_ok, loadEntry_eq_ok_iff]
    constructor
    · rintro ⟨loaded, hloaded, ⟨⟩⟩
      exact ⟨entries, loaded, rfl, hloaded, rfl⟩
    · rintro ⟨_, loaded, ⟨⟩, hloaded, rfl⟩
      exact ⟨loaded, hloaded, rfl⟩
  | null | bool | str | number | list | host =>
    rw [load]
    · simp
    · rintro entries ⟨⟩

/-- A record has its fields in order. -/
theorem load_record_eq_ok_iff {name : String} {fields : List (String × Schema × Option Loaded)} :
    (recordWith name fields).load path raw = .ok x ↔
      ∃ entries xs, recordEntries path name raw = .ok entries ∧
        unknownKeys (fields.map (·.1)) entries = [] ∧
        List.Forall₂ (LoadsField path entries) fields xs ∧ x = .record name xs := by
  rw [load, bind_eq_ok]
  constructor
  · rintro ⟨entries, hentries, h⟩
    simp only at h
    split at h
    · next hknown =>
      simp only [bind_eq_ok, loadFields_eq_ok_iff] at h
      obtain ⟨xs, hxs, ⟨⟩⟩ := h
      exact ⟨entries, xs, hentries, List.isEmpty_iff.mp hknown, hxs, rfl⟩
    · cases h
  · rintro ⟨entries, xs, hentries, hknown, hxs, rfl⟩
    refine ⟨entries, hentries, ?_⟩
    simp only [hknown]
    exact bind_eq_ok.mpr ⟨xs, loadFields_eq_ok_iff.mpr hxs, rfl⟩

theorem gives_of_load (h : s.load path raw = .ok x) : Gives path s raw x := by
  cases s with
  | any =>
    rw [load] at h
    cases h
    exact .any
  | text | integer | boolean =>
    rw [load, loadPlain_eq_ok_iff] at h
    obtain ⟨haccepts, rfl⟩ := h
    split at haccepts
    · constructor
    · cases haccepts
  | real =>
    rw [load] at h
    unfold loadReal widen at h
    split at h
    · split at h
      · next hn =>
        cases h
        exact .widened hn
      · cases h
    · cases h
      exact .real
    · cases h
  | null =>
    by_cases hraw : raw = .null
    · subst hraw
      rw [load] at h
      cases h
      exact .null
    · rw [load_null_of_ne hraw] at h
      cases h
  | unsupported =>
    rw [load] at h
    cases h
  | literal values =>
    rw [load] at h
    split at h
    · next hany =>
      cases h
      exact .literal hany
    · cases h
  | annotated s =>
    rw [load] at h
    exact .annotated h
  | enumeration name members =>
    rw [load, loadMember] at h
    split at h
    · next hm =>
      cases h
      exact .member hm
    · split at h <;> cases h
  | union options =>
    rw [load, loadFirst_eq_ok_iff] at h
    obtain ⟨i, t, ht, h, hbefore⟩ := h
    exact .union ht h hbefore
  | list s =>
    rw [load, load_items_eq_ok_iff] at h
    obtain ⟨vs, xs, rfl, hxs, rfl⟩ := h
    exact .list hxs
  | tuple s =>
    rw [load, load_items_eq_ok_iff] at h
    obtain ⟨vs, xs, rfl, hxs, rfl⟩ := h
    exact .tuple hxs
  | dict k v =>
    obtain ⟨entries, loaded, rfl, hloaded, rfl⟩ := load_dict_eq_ok_iff.mp h
    exact .dict hloaded
  | recordWith name fields =>
    obtain ⟨entries, xs, hentries, hknown, hxs, rfl⟩ := load_record_eq_ok_iff.mp h
    exact .record hentries hknown hxs

theorem Gives.load_eq (h : Gives path s raw x) : s.load path raw = .ok x := by
  cases h with
  | any => rw [load]
  | text | integer | boolean => rw [load]; rfl
  | real => rw [load]; rfl
  | widened h => rw [load, loadReal, widen, h]
  | null => rw [load]
  | literal h => rw [load, if_pos h]
  | annotated h => rw [load, h]
  | member h => rw [load, loadMember, h]
  | union hs h hbefore =>
    rw [load, loadFirst_eq_ok_iff]
    exact ⟨_, _, hs, h, hbefore⟩
  | list h | tuple h =>
    rw [load, load_items_eq_ok_iff]
    exact ⟨_, _, rfl, h, rfl⟩
  | dict h => exact load_dict_eq_ok_iff.mpr ⟨_, _, rfl, h, rfl⟩
  | record hv hknown h => exact load_record_eq_ok_iff.mpr ⟨_, _, hv, hknown, h, rfl⟩

/-- **A loaded value comes about in one of these ways.** -/
theorem load_eq_ok_iff : s.load path raw = .ok x ↔ Gives path s raw x :=
  ⟨gives_of_load, Gives.load_eq⟩

end

end Schema

end Stencil

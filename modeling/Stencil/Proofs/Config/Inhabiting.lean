import Stencil.Proofs.Config.Keys
import Stencil.Proofs.Config.Part

/-!
# Loaded values inhabit their schemas

What a raw value is loaded as under a schema is a value of the kind that the schema describes, at
every depth: a plain value of exactly the kind that is asked for, a member of the enumeration, a
list, tuple or mapping of inhabitants, an inhabitant of an option of a union, a record with an
inhabitant for each of its fields. Fallbacks are taken as they are, so they have to inhabit the
schemas of their fields.

## Main definitions

* `Loaded.Inhabits` says that a loaded value is of the kind that a schema describes.
* `Schema.FallbacksInhabit` asks this of all fallbacks of the records in a schema.
* `Site.KeysNamed` says that all keys of a raw mapping for a record are fields of it.

## Main results

* `Schema.inhabits_of_load`: a loaded value inhabits its schema.
* `loaded_inhabits`: so do all parts of it, and no mapping for a record has a key too many.
-/

namespace Stencil

/-! ## Inhabitants -/

/-- A loaded value is of the kind that a schema describes. A list or a mapping that is taken as it
is has raw values for its items. -/
inductive Loaded.Inhabits : Loaded → Schema → Prop
  | any {x : Loaded} : Inhabits x .any
  | text {s : String} : Inhabits (.raw (.str s)) .text
  | integer {n : Int} : Inhabits (.raw (.int n)) .integer
  | real {x : Binary64} : Inhabits (.raw (.number (.binary x))) .real
  | boolean {b : Bool} : Inhabits (.raw (.bool b)) .boolean
  | null : Inhabits (.raw .null) .null
  | annotated {x : Loaded} {s : Schema} (h : Inhabits x s) : Inhabits x (.annotated s)
  | literal {v : Value} {values : List Value} (h : ∃ w ∈ values, v.same w = true) :
      Inhabits (.raw v) (.literal values)
  | member {name m : String} {members : List (String × Value)} (h : m ∈ members.map (·.1)) :
      Inhabits (.member name m) (.enumeration name members)
  | list {xs : List Loaded} {s : Schema} (h : ∀ x ∈ xs, Inhabits x s) :
      Inhabits (.list xs) (.list s)
  | rawList {vs : List Value} {s : Schema} (h : ∀ v ∈ vs, Inhabits (.raw v) s) :
      Inhabits (.raw (.list vs)) (.list s)
  | tuple {xs : List Loaded} {s : Schema} (h : ∀ x ∈ xs, Inhabits x s) :
      Inhabits (.tuple xs) (.tuple s)
  | dict {entries : List (Loaded × Loaded)} {k v : Schema} (hk : ∀ e ∈ entries, Inhabits e.1 k)
      (hv : ∀ e ∈ entries, Inhabits e.2 v) : Inhabits (.dict entries) (.dict k v)
  | rawDict {entries : List (Value × Value)} {k v : Schema}
      (hk : ∀ e ∈ entries, Inhabits (.raw e.1) k) (hv : ∀ e ∈ entries, Inhabits (.raw e.2) v) :
      Inhabits (.raw (.dict entries)) (.dict k v)
  | union {x : Loaded} {s : Schema} {options : List Schema} (hs : s ∈ options)
      (h : Inhabits x s) : Inhabits x (.union options)
  | record {name : String} {fields : List (String × Schema × Option Loaded)}
      {xs : List (String × Loaded)} (hnames : xs.map (·.1) = fields.map (·.1))
      (h : ∀ (i : Nat) f x, fields[i]? = some f → xs[i]? = some x → Inhabits x.2 f.2.1) :
      Inhabits (.record name xs) (.recordWith name fields)

/-- The fallbacks of a record inhabit the schemas of their fields. -/
def Schema.OwnFallbacksInhabit : Schema → Prop
  | .recordWith _ fields => ∀ f ∈ fields, ∀ x, f.2.2 = some x → x.Inhabits f.2.1
  | _ => True

/-- The fallbacks of all records in a schema inhabit the schemas of their fields. -/
def Schema.FallbacksInhabit : Schema → Prop :=
  Schema.Everywhere Schema.OwnFallbacksInhabit

/-- All keys of a raw mapping for a record are fields of it. -/
def Site.KeysNamed (a : Site) : Prop :=
  ∀ name fields entries, a.schema = .recordWith name fields → a.raw = .dict entries →
    ∀ e ∈ entries, ∃ f ∈ fields, e.1 = .str f.1

namespace Schema

/-! ## Members and keys -/

theorem mem_of_memberName {members : List (String × Value)} {v : Value} {m : String}
    (h : memberName members v = some m) : m ∈ members.map (·.1) := by
  obtain ⟨e, he, rfl⟩ := Option.map_eq_some_iff.mp h
  exact List.mem_map_of_mem (List.mem_of_find?_eq_some he)

theorem mem_of_memberOf? {members : List (String × Value)} {v : Value} {m : String}
    (h : memberOf? members v = some m) : m ∈ members.map (·.1) := by
  unfold memberOf? at h
  rcases Option.or_eq_some_iff.mp h with h | ⟨-, h⟩
  · split at h
    · next s =>
      obtain ⟨w, hw, rfl⟩ := Option.map_eq_some_iff.mp h
      cases hname : memberName members w with
      | none =>
        obtain ⟨before, behind, rfl, -⟩ := List.lookup_eq_some_iff.mp hw
        simp
      | some m => exact mem_of_memberName hname
    · cases h
  · exact mem_of_memberName h

theorem unknownKeys_eq_nil_iff {names : List String} {entries : List (Value × Value)} :
    unknownKeys names entries = [] ↔ ∀ e ∈ entries, ∃ n ∈ names, e.1 = .str n := by
  rw [unknownKeys, ← List.length_eq_zero_iff, List.length_mergeSort, List.length_map,
    List.length_eq_zero_iff, List.filter_eq_nil_iff]
  refine forall₂_congr fun e _ => ?_
  split
  · next s hs => simp [hs]
  · next hs =>
    simp only [not_true_eq_false, false_iff]
    rintro ⟨n, -, hn⟩
    exact hs n hn

/-! ## Loaded values are inhabitants -/

section

variable {path : String} {s t : Schema} {raw : Value} {x : Loaded}

theorem names_of_loadsField {entries : List (Value × Value)}
    {fields : List (String × Schema × Option Loaded)} {xs : List (String × Loaded)}
    (h : List.Forall₂ (LoadsField path entries) fields xs) :
    xs.map (·.1) = fields.map (·.1) := by
  induction h with
  | nil => rfl
  | cons hfield _ ih =>
    rw [List.map_cons, List.map_cons, ih]
    cases hfield <;> rfl

/-- What holds of all that is loaded under a schema holds of the items of a list. -/
theorem LoadsItems.forall_mem {P : Loaded → Prop} {vs : List Value} {xs : List Loaded}
    (h : LoadsItems path s vs xs) (hP : ∀ {p w y}, s.load p w = .ok y → P y) : ∀ y ∈ xs, P y := by
  intro y hy
  obtain ⟨i, hi⟩ := List.mem_iff_getElem?.mp hy
  have hlt : i < vs.length := by
    rw [← h.length]
    exact (List.getElem?_eq_some_iff.mp hi).1
  exact hP (h.item i vs[i] y (List.getElem?_eq_getElem hlt) hi)

/-- **A loaded value inhabits its schema**, if the fallbacks in the schema inhabit theirs. -/
theorem inhabits_of_load (hfallbacks : s.FallbacksInhabit) (hload : s.load path raw = .ok x) :
    x.Inhabits s := by
  induction s using Schema.induction generalizing path raw x with
  | step s ih =>
    have hgives := load_eq_ok_iff.mp hload
    clear hload
    have inside {t : Schema} (ht : t ∈ s.children) {p : String} {w : Value} {y : Loaded}
        (hy : t.load p w = .ok y) : y.Inhabits t := ih t ht (hfallbacks.of_mem_children ht) hy
    cases hgives with
    | any => exact .any
    | text => exact .text
    | integer => exact .integer
    | real | widened => exact .real
    | boolean => exact .boolean
    | null => exact .null
    | literal h => exact .literal (List.any_eq_true.mp h)
    | annotated h => exact .annotated (inside (.head _) h)
    | member h => exact .member (mem_of_memberOf? h)
    | list h => exact .list (h.forall_mem (inside (.head _)))
    | tuple h => exact .tuple (h.forall_mem (inside (.head _)))
    | @dict k v entries loaded h =>
      have hinhabit : ∀ l ∈ loaded, l.1.Inhabits k ∧ l.2.Inhabits v := by
        intro l hl
        obtain ⟨e, -, he⟩ := exists_of_forall₂ h hl
        exact ⟨inside (.head _) he.key, inside (.tail _ (.head _)) he.value⟩
      -- a key of the mapping may stand with the value of another entry
      refine .dict (fun e he => ?_) (fun e he => ?_)
      · obtain ⟨⟨l, hl, heq⟩, -⟩ := Loaded.mem_bindAll he
        exact heq ▸ (hinhabit l hl).1
      · obtain ⟨-, l, hl, heq⟩ := Loaded.mem_bindAll he
        exact heq ▸ (hinhabit l hl).2
    | union hs h =>
      have hmem := List.mem_of_getElem? hs
      exact .union hmem (inside hmem h)
    | @record name fields raw entries xs hv hknown h =>
      refine .record (names_of_loadsField h) fun i f y hf hy => ?_
      have hmem := List.mem_of_getElem? hf
      cases forall₂_getElem? h hf hy with
      | written hw h => exact inside (List.mem_map_of_mem hmem) h
      | left hw => exact (everywhere_iff.mp hfallbacks).1 _ hmem _ rfl

end

end Schema

/-! ## At every depth -/

theorem Site.keysNamed_of_loads {a : Site} (h : a.Loads) : a.KeysNamed := by
  rintro name fields entries hschema hraw
  obtain ⟨x, hx⟩ := h
  have hgives := Schema.load_eq_ok_iff.mp hx
  rw [hschema, hraw] at hgives
  cases hgives with
  | record hv hknown h =>
    cases hv
    intro e he
    obtain ⟨n, hn, heq⟩ := Schema.unknownKeys_eq_nil_iff.mp hknown e he
    obtain ⟨f, hf, rfl⟩ := List.mem_map.mp hn
    exact ⟨f, hf, heq⟩

/-- **What is loaded under a schema inhabits it at every depth**: the whole value, and each of its
parts under the schema that it is loaded under. Wherever a record is loaded from a mapping, all keys
of the mapping are fields of it. -/
theorem loaded_inhabits {path : String} {s : Schema} {raw : Value} {x : Loaded}
    (hfallbacks : s.FallbacksInhabit) (hload : s.load path raw = .ok x) :
    x.Inhabits s ∧ ∀ part, Loading.Contains ⟨⟨path, s, raw⟩, x⟩ part →
      part.value.Inhabits part.site.schema ∧ part.site.KeysNamed := by
  refine ⟨Schema.inhabits_of_load hfallbacks hload, fun part hpart => ?_⟩
  have hsucceeds : part.site.load = .ok part.value := hpart.succeeds hload
  constructor
  · exact Schema.inhabits_of_load (hfallbacks.of_occurs hpart.occurs) hsucceeds
  · exact Site.keysNamed_of_loads ⟨_, hsucceeds⟩

/-- A server: its mode, which falls back on a member, its weights, and a name that it may have. -/
def serverSchema : Schema :=
  .recordWith "Server"
    [("mode", .enumeration "Mode" [("FAST", .str "fast"), ("SAFE", .str "safe")],
        some (.member "Mode" "FAST")),
      ("weights", .dict .text (.union [.real, .boolean]), none),
      ("name", .union [.text, .null], some (.raw .null))]

/-- A server with two weights, of which the first is an integer. -/
def serverDocument : Value :=
  .dict [(.str "weights", .dict [(.str "a", .int 2), (.str "b", .bool true)])]

/-- What it is loaded as: the integer is widened. -/
def server : Loaded :=
  .record "Server"
    [("mode", .member "Mode" "FAST"),
      ("weights",
        .dict [(.raw (.str "a"), .raw (.number (.binary (.finite false 4503599627370496 (-51))))),
          (.raw (.str "b"), .raw (.bool true))]),
      ("name", .raw .null)]

theorem serverSchema_fallbacksInhabit : serverSchema.FallbacksInhabit := by
  simp only [serverSchema, Schema.FallbacksInhabit, Schema.OwnFallbacksInhabit,
    Schema.everywhere_recordWith, Schema.everywhere_dict, Schema.everywhere_union,
    List.forall_mem_cons, List.not_mem_nil, false_implies, implies_true, and_true, true_and]
  refine ⟨⟨?_, ?_, ?_⟩, ?_, ⟨?_, ?_, ?_⟩, ?_, ?_⟩
  · rintro x ⟨⟩
    exact .member (by simp)
  · rintro x ⟨⟩
  · rintro x ⟨⟩
    exact .union (by simp) .null
  all_goals exact Schema.everywhere_of_leaf rfl trivial

/-- The server inhabits its schema, and the mapping that it is loaded from has no key too many. -/
theorem server_inhabits :
    serverSchema.FallbacksInhabit ∧ serverSchema.load "$" serverDocument = .ok server ∧
      server.Inhabits serverSchema ∧ Site.KeysNamed ⟨"$", serverSchema, serverDocument⟩ := by
  have hload : serverSchema.load "$" serverDocument = .ok server := by with_unfolding_all rfl
  obtain ⟨hinhabits, hparts⟩ := loaded_inhabits serverSchema_fallbacksInhabit hload
  exact ⟨serverSchema_fallbacksInhabit, hload, hinhabits, (hparts _ .refl).2⟩

end Stencil

import Stencil.Config
import Stencil.Proofs.Config.Failing
import Stencil.Proofs.Config.Inhabiting
import Stencil.Proofs.Config.Raw
import Stencil.Proofs.Yaml.Proper

/-!
# Documents that are configurations

A document holds settings if it is null, or a mapping whose entries are fields of the settings with
values of their kinds, and whose recursion limit is in range. The settings then are what is written,
and defaults where nothing is. Also false, zero, an empty string and an empty list pass for a document
that writes nothing, although they are neither null nor mappings. All other documents are refused, by
an error that says so.

## Main definitions

* `Settings.IsEntry` lists the entries that a document may have, `Settings.IsConfiguration` says which
  mappings hold settings.
* `Settings.SetBy` says that fields are what a document writes, and defaults where it writes nothing.
* `Value.IsOverlooked` lists the documents that pass although they are neither null nor mappings.
* `Settings.RefusedBy` lists the errors by which documents are refused.

## Main results

* `Schema.Reads.list` and `Schema.Reads.dict`: which lists and mappings are loaded, by what their
  items and entries are.
* `Settings.load_schema_eq_ok` and `Settings.exists_load_schema`: which mappings are loaded.
* `document_accepted_iff`: which documents are accepted, and with which settings.
* `Settings.ofText_accepts_iff`: which texts are, since no document that is read has a key twice.
-/

namespace Stencil

/-- Lists are related by what both are made from when they are made from one list. -/
theorem forall₂_made_iff {α β γ : Type} {f : γ → α} {g : γ → β} {l : List α} {ys : List β} :
    List.Forall₂ (fun a y => ∃ c, a = f c ∧ y = g c) l ys ↔
      ∃ cs : List γ, l = cs.map f ∧ ys = cs.map g := by
  constructor
  · intro h
    induction h with
    | nil => exact ⟨[], rfl, rfl⟩
    | cons hc _ ih =>
      obtain ⟨c, rfl, rfl⟩ := hc
      obtain ⟨cs, rfl, rfl⟩ := ih
      exact ⟨c :: cs, rfl, rfl⟩
  · rintro ⟨cs, rfl, rfl⟩
    rw [List.forall₂_map_left_iff, List.forall₂_map_right_iff, List.forall₂_same]
    exact fun c _ => ⟨c, rfl, rfl⟩

namespace Schema

/-! ## Values of one form

A schema reads a kind of data if the raw values that are loaded under it are those that write such
data. -/

section

variable {α β : Type} {s k v : Schema} {write : α → Value} {loaded : α → Loaded}
  {writeKey : β → Value} {loadedKey : β → Loaded}

/-- What is loaded under a schema is what writes data, and it is loaded as these data are. -/
def Reads (s : Schema) (write : α → Value) (loaded : α → Loaded) : Prop :=
  ∀ path raw x, s.load path raw = .ok x ↔ ∃ a, raw = write a ∧ x = loaded a

theorem reads_any : any.Reads id Loaded.raw := by
  intro path raw x
  simp [eq_comm]

theorem reads_text : text.Reads Value.str fun t => .raw (.str t) := by
  intro path raw x
  rw [load_eq_ok_iff]
  constructor
  · rintro ⟨⟩
    exact ⟨_, rfl, rfl⟩
  · rintro ⟨t, rfl, rfl⟩
    exact .text

theorem reads_integer : integer.Reads Value.int fun n => .raw (.int n) := by
  intro path raw x
  rw [load_eq_ok_iff]
  constructor
  · rintro ⟨⟩
    exact ⟨_, rfl, rfl⟩
  · rintro ⟨n, rfl, rfl⟩
    exact .integer

/-- **A list is read item by item.** -/
theorem Reads.list (h : s.Reads write loaded) :
    (list s).Reads (fun as : List α => .list (as.map write))
      fun as : List α => .list (as.map loaded) := by
  intro path raw x
  have hitems {vs : List Value} {xs : List Loaded} :
      LoadsItems path s vs xs ↔ ∃ as : List α, vs = as.map write ∧ xs = as.map loaded := by
    rw [← forall₂_made_iff, forall₂_iff_getElem?]
    constructor
    · rintro ⟨hlength, hitem⟩
      exact ⟨hlength, fun i w y hw hy => (h _ _ _).mp (hitem i w y hw hy)⟩
    · rintro ⟨hlength, hitem⟩
      exact ⟨hlength, fun i w y hw hy => (h _ _ _).mpr (hitem i w y hw hy)⟩
  rw [load_eq_ok_iff]
  constructor
  · intro hgives
    cases hgives with
    | list hloads =>
      obtain ⟨as, rfl, rfl⟩ := hitems.mp hloads
      exact ⟨as, rfl, rfl⟩
  · rintro ⟨as, rfl, rfl⟩
    exact .list (hitems.mpr ⟨as, rfl, rfl⟩)

/-- **A mapping is read entry by entry**, where all keys that are read can be keys. -/
theorem Reads.dict (hk : k.Reads writeKey loadedKey) (hv : v.Reads write loaded)
    (hkey : ∀ b, (loadedKey b).isKey = true) :
    (dict k v).Reads (fun es : List (β × α) => .dict (es.map fun e => (writeKey e.1, write e.2)))
      fun es : List (β × α) =>
        .dict (Loaded.bindAll (es.map fun e => (loadedKey e.1, loaded e.2))) := by
  intro path raw x
  have hentry {e : Value × Value} {l : Loaded × Loaded} : LoadsEntry path k v e l ↔
      ∃ c : β × α, e = (writeKey c.1, write c.2) ∧ l = (loadedKey c.1, loaded c.2) := by
    obtain ⟨key, value⟩ := e
    obtain ⟨loadedAs, valueAs⟩ := l
    constructor
    · rintro ⟨hkeyLoad, hvalueLoad, -⟩
      obtain ⟨b, rfl, rfl⟩ := (hk _ _ _).mp hkeyLoad
      obtain ⟨a, rfl, rfl⟩ := (hv _ _ _).mp hvalueLoad
      exact ⟨(b, a), rfl, rfl⟩
    · rintro ⟨⟨b, a⟩, ⟨⟩, ⟨⟩⟩
      exact ⟨(hk _ _ _).mpr ⟨b, rfl, rfl⟩, (hv _ _ _).mpr ⟨a, rfl, rfl⟩, hkey b⟩
  rw [load_eq_ok_iff]
  constructor
  · intro hgives
    cases hgives with
    | dict hloads =>
      obtain ⟨es, rfl, rfl⟩ := forall₂_made_iff.mp (hloads.imp fun _ _ h => hentry.mp h)
      exact ⟨es, rfl, rfl⟩
  · rintro ⟨es, rfl, rfl⟩
    exact .dict ((forall₂_made_iff.mpr ⟨es, rfl, rfl⟩).imp fun _ _ h => hentry.mpr h)

/-! ## Fields of one form -/

variable {path name : String} {entries : List (Value × Value)} {fallback : Loaded}
  {y : String × Loaded}

/-- A field is loaded if what is written in it, if anything is, writes data of its kind. -/
theorem Reads.exists_loadsField (h : s.Reads write loaded)
    (hapart : entries.Pairwise fun e f => f.1.same e.1 = false)
    (hwritten : ∀ w, (.str name, w) ∈ entries → ∃ a, w = write a) :
    ∃ y, LoadsField path entries (name, s, some fallback) y := by
  cases hlookup : Value.lookup name entries with
  | none => exact ⟨_, .left hlookup⟩
  | some w =>
    obtain ⟨a, rfl⟩ := hwritten w ((Value.lookup_eq_some_iff hapart).mp hlookup)
    exact ⟨_, .written hlookup ((h _ _ _).mpr ⟨a, rfl, rfl⟩)⟩

/-- What a field is loaded as is understood as the data that are written in it, or as its default
where nothing is written. -/
theorem Reads.of_loadsField (h : s.Reads write loaded) (understood : Loaded → α)
    (hunderstood : ∀ a, (write a).Proper → understood (loaded a) = a) (default : α)
    (hdefault : understood fallback = default) (hproper : (Value.dict entries).Proper)
    (hfield : LoadsField path entries (name, s, some fallback) y) :
    y.1 = name ∧ ∃ a, understood y.2 = a ∧
      ((.str name, write a) ∈ entries ∨ (∀ e ∈ entries, e.1 ≠ .str name) ∧ a = default) := by
  obtain ⟨hapart, hinside⟩ := Value.proper_dict.mp hproper
  cases hfield with
  | written hlookup hload =>
    have hmem := (Value.lookup_eq_some_iff hapart).mp hlookup
    obtain ⟨a, rfl, rfl⟩ := (h _ _ _).mp hload
    exact ⟨rfl, a, hunderstood a (hinside _ hmem).2, .inl hmem⟩
  | left hlookup =>
    exact ⟨rfl, default, hdefault, .inr ⟨Value.lookup_eq_none_iff.mp hlookup, rfl⟩⟩

end

end Schema

/-! ## Documents -/

namespace Value

/-- The entries of a mapping; other values have none. -/
def entries : Value → List (Value × Value)
  | dict entries => entries
  | _ => []

/-- A value that passes for an empty document, although it is neither null nor a mapping. -/
inductive IsOverlooked : Value → Prop
  | false : IsOverlooked (.bool false)
  | zero {n : Number} (h : n.isZero = true) : IsOverlooked (.number n)
  | text : IsOverlooked (.str "")
  | list : IsOverlooked (.list [])

theorem isEmpty_iff {v : Value} :
    v.isEmpty = true ↔ v = .null ∨ v = .dict [] ∨ v.IsOverlooked := by
  constructor
  · intro h
    cases v with
    | null => exact .inl rfl
    | bool b =>
      cases b with
      | false => exact .inr (.inr .false)
      | true => cases h
    | str s =>
      obtain rfl : s = "" := String.isEmpty_iff.mp h
      exact .inr (.inr .text)
    | number n => exact .inr (.inr (.zero h))
    | list items =>
      obtain rfl := List.isEmpty_iff.mp h
      exact .inr (.inr .list)
    | dict entries =>
      obtain rfl := List.isEmpty_iff.mp h
      exact .inr (.inl rfl)
    | host => cases h
  · rintro (rfl | rfl | h)
    · rfl
    · rfl
    · cases h with
      | zero h => exact h
      | false | text | list => rfl

end Value

namespace Settings

/-- An entry that a document may have: a field of the settings, with a value of its kind. -/
inductive IsEntry : Value × Value → Prop
  | templateRoot (s : String) : IsEntry (.str "template_root", .str s)
  | defaultEncoding (s : String) : IsEntry (.str "default_encoding", .str s)
  | recursionLimit (n : Int) : IsEntry (.str "recursion_limit", .int n)
  | exclude (patterns : List String) : IsEntry (.str "exclude", .list (patterns.map .str))
  | sharedVariables (shared : List (String × Value)) :
      IsEntry (.str "shared_variables", .dict (shared.map fun b => (.str b.1, b.2)))

theorem isEntry_iff {name : String} {w : Value} : IsEntry (.str name, w) ↔
    (name = "template_root" ∧ ∃ s, w = .str s) ∨ (name = "default_encoding" ∧ ∃ s, w = .str s) ∨
      (name = "recursion_limit" ∧ ∃ n, w = .int n) ∨
      (name = "exclude" ∧ ∃ patterns : List String, w = .list (patterns.map .str)) ∨
      (name = "shared_variables" ∧
        ∃ shared : List (String × Value), w = .dict (shared.map fun b => (.str b.1, b.2))) := by
  constructor
  · intro h
    cases h <;> simp
  · rintro (⟨rfl, s, rfl⟩ | ⟨rfl, s, rfl⟩ | ⟨rfl, n, rfl⟩ | ⟨rfl, patterns, rfl⟩ |
      ⟨rfl, shared, rfl⟩)
    · exact .templateRoot s
    · exact .defaultEncoding s
    · exact .recursionLimit n
    · exact .exclude patterns
    · exact .sharedVariables shared

/-- The entries of a mapping that holds settings. -/
structure IsConfiguration (document : List (Value × Value)) : Prop where
  entry : ∀ e ∈ document, IsEntry e
  limit : ∀ n : Int, (.str "recursion_limit", .int n) ∈ document → 1 ≤ n ∧ n ≤ maxRecursionLimit

theorem isConfiguration_nil : IsConfiguration [] :=
  ⟨by simp, by simp⟩

end Settings

/-- A document that holds settings: null, or a mapping with settings for its entries. -/
def Value.HoldsSettings (document : Value) : Prop :=
  document = .null ∨ ∃ entries, document = .dict entries ∧ Settings.IsConfiguration entries

namespace Settings

/-- The fields of settings, as a document writes them. -/
def fieldsOf (templateRoot defaultEncoding : String) (limit : Int) (exclude : List String)
    (sharedVariables : List (String × Value)) : List (String × Value) :=
  [("template_root", .str templateRoot), ("default_encoding", .str defaultEncoding),
    ("recursion_limit", .int limit), ("exclude", .list (exclude.map .str)),
    ("shared_variables", .dict (sharedVariables.map fun b => (.str b.1, b.2)))]

/-- The fields of settings, as a document writes them. -/
def fields (s : Settings) : List (String × Value) :=
  fieldsOf s.templateRoot s.defaultEncoding s.recursionLimit s.exclude s.sharedVariables

/-- Each field is what a document writes for it, or its default where the document writes nothing. -/
def SetBy (document : List (Value × Value)) (fields : List (String × Value)) : Prop :=
  ∀ f ∈ fields, (.str f.1, f.2) ∈ document ∨
    (∀ e ∈ document, e.1 ≠ .str f.1) ∧ f ∈ defaults.fields

/-- The errors by which documents are refused, each for a reason of its own. -/
inductive RefusedBy (path : String) : Value → ConfigError → Prop
  | noMapping {document : Value} (h : ∀ entries, document ≠ .dict entries) :
      RefusedBy path document (.noMapping path)
  | mismatch {document : List (Value × Value)} {e : Value × Value} (he : e ∈ document)
      (h : ¬ IsEntry e) (m : Mismatch) :
      RefusedBy path (.dict document) (.refused path (.load (.mismatch m)))
  | limit {document : List (Value × Value)} {n : Int}
      (h : (.str "recursion_limit", .int n) ∈ document)
      (hrange : ¬ (1 ≤ n ∧ n ≤ maxRecursionLimit)) :
      RefusedBy path (.dict document) (.refused path (.limit n))

section

variable {path templateRoot defaultEncoding : String} {limit : Int} {exclude : List String}
  {sharedVariables : List (String × Value)} {document : List (Value × Value)} {x : Loaded}

theorem schema_eq : schema = .recordWith "EngineConfig"
    [("template_root", .text, some (.raw (.str defaults.templateRoot))),
      ("default_encoding", .text, some (.raw (.str defaults.defaultEncoding))),
      ("recursion_limit", .integer, some (.raw (.int defaults.recursionLimit))),
      ("exclude", .list .text, some (.raw (.list []))),
      ("shared_variables", .dict .text .any, some (.raw (.dict [])))] := rfl

theorem schema_faultless : schema.Faultless := by
  rw [schema_eq, Schema.Faultless, Schema.everywhere_recordWith]
  simp only [List.forall_mem_cons, List.not_mem_nil, false_implies, implies_true, and_true]
  have hleaf {s : Schema} (hchildren : s.children = []) (hown : s.OwnFaultless) :
      s.Everywhere Schema.OwnFaultless := Schema.everywhere_of_leaf hchildren hown
  refine ⟨trivial, hleaf rfl trivial, hleaf rfl trivial, hleaf rfl trivial, ?_, ?_⟩
  · rw [Schema.everywhere_iff]
    simpa [Schema.children, Schema.OwnFaultless] using hleaf (s := .text) rfl trivial
  · rw [Schema.everywhere_dict]
    exact ⟨rfl, hleaf rfl trivial, hleaf rfl trivial⟩

theorem isEntry_of_mem {f : String × Value}
    (hf : f ∈ fieldsOf templateRoot defaultEncoding limit exclude sharedVariables) :
    IsEntry (.str f.1, f.2) := by
  simp only [fieldsOf, List.mem_cons, List.not_mem_nil, or_false] at hf
  rcases hf with rfl | rfl | rfl | rfl | rfl
  · exact .templateRoot _
  · exact .defaultEncoding _
  · exact .recursionLimit _
  · exact .exclude _
  · exact .sharedVariables _

theorem texts_items (patterns : List String) :
    (Loaded.list (patterns.map fun s => .raw (.str s))).items.filterMap Loaded.text? = patterns := by
  simp only [Loaded.items, List.filterMap_map]
  exact List.filterMap_some

/-- An entry that has the name of a field that is set is this field. -/
theorem SetBy.eq_of_mem {fields : List (String × Value)} {e : Value × Value} {f : String × Value}
    (hset : SetBy document fields) (hproper : (Value.dict document).Proper) (he : e ∈ document)
    (hf : f ∈ fields) (hname : e.1 = .str f.1) : e = (.str f.1, f.2) := by
  obtain ⟨hapart, -⟩ := Value.proper_dict.mp hproper
  rcases hset f hf with hmem | ⟨hnone, -⟩
  · have hlookup := (Value.lookup_eq_some_iff hapart).mpr hmem
    have hsame : Value.lookup f.1 document = some e.2 :=
      (Value.lookup_eq_some_iff hapart).mpr (hname ▸ he)
    exact Prod.ext hname (Option.some.inj (hsame.symm.trans hlookup))
  · exact absurd hname (hnone e he)

/-- A mapping without unknown keys has no entries but the fields that it sets. -/
theorem SetBy.isEntry
    (hset : SetBy document (fieldsOf templateRoot defaultEncoding limit exclude sharedVariables))
    (hproper : (Value.dict document).Proper)
    (hknown : Schema.unknownKeys
      ((fieldsOf templateRoot defaultEncoding limit exclude sharedVariables).map (·.1)) document =
        []) :
    ∀ e ∈ document, IsEntry e := by
  intro e he
  obtain ⟨n, hn, hname⟩ := Schema.unknownKeys_eq_nil_iff.mp hknown e he
  obtain ⟨f, hf, rfl⟩ := List.mem_map.mp hn
  rw [hset.eq_of_mem hproper he hf hname]
  exact isEntry_of_mem hf

/-- Shared variables are understood as they are written. -/
theorem bindings_bindAll {shared : List (String × Value)}
    (h : (Value.dict (shared.map fun b => (.str b.1, b.2))).Proper) :
    (Loaded.dict (Loaded.bindAll
      (shared.map fun b => (.raw (.str b.1), .raw b.2)))).bindings = shared := by
  obtain ⟨hapart, -⟩ := Value.proper_dict.mp h
  have hkept : Loaded.KeysApart (shared.map fun b => (.raw (.str b.1), .raw b.2)) := by
    rw [List.pairwise_map] at hapart
    rw [Loaded.KeysApart, List.pairwise_map]
    exact hapart
  rw [Loaded.bindAll_eq_self_iff.mpr hkept]
  simp [Loaded.bindings, List.filterMap_map]

/-- **The settings that a mapping is loaded as are set by it**, and all its entries are fields with
values of their kinds. -/
theorem load_schema_eq_ok (hproper : (Value.dict document).Proper)
    (hload : schema.load path (.dict document) = .ok x) :
    (∀ e ∈ document, IsEntry e) ∧ ∃ name xs templateRoot defaultEncoding limit exclude shared,
      x = .record name xs ∧
        ofFields xs = ofParts templateRoot defaultEncoding limit exclude shared ∧
        SetBy document (fieldsOf templateRoot defaultEncoding limit exclude shared) := by
  rw [schema_eq, Schema.load_record_eq_ok_iff] at hload
  obtain ⟨entries, xs, hentries, hknown, hfields, rfl⟩ := hload
  cases hentries
  simp only [List.forall₂_cons_left_iff, List.forall₂_nil_left_iff] at hfields
  obtain ⟨⟨n₁, x₁⟩, _, h₁, ⟨⟨n₂, x₂⟩, _, h₂, ⟨⟨n₃, x₃⟩, _, h₃, ⟨⟨n₄, x₄⟩, _, h₄,
    ⟨⟨n₅, x₅⟩, _, h₅, rfl, rfl⟩, rfl⟩, rfl⟩, rfl⟩, rfl⟩ := hfields
  -- of each field, what the settings take from its loaded value
  obtain ⟨⟨⟩, templateRoot, htemplateRoot, hset₁⟩ := Schema.reads_text.of_loadsField
    (fun x => x.text?.getD defaults.templateRoot) (fun _ _ => rfl) defaults.templateRoot rfl
    hproper h₁
  obtain ⟨⟨⟩, defaultEncoding, hdefaultEncoding, hset₂⟩ := Schema.reads_text.of_loadsField
    (fun x => x.text?.getD defaults.defaultEncoding) (fun _ _ => rfl) defaults.defaultEncoding rfl
    hproper h₂
  obtain ⟨⟨⟩, limit, hlimit, hset₃⟩ := Schema.reads_integer.of_loadsField
    (fun x => x.int?.getD defaults.recursionLimit) (fun _ _ => rfl) defaults.recursionLimit rfl
    hproper h₃
  obtain ⟨⟨⟩, exclude, hexclude, hset₄⟩ := Schema.reads_text.list.of_loadsField
    (fun x => x.items.filterMap Loaded.text?) (fun texts _ => texts_items texts) [] rfl hproper h₄
  obtain ⟨⟨⟩, shared, hshared, hset₅⟩ :=
    (Schema.reads_text.dict Schema.reads_any fun _ => rfl).of_loadsField
      Loaded.bindings (fun _ => bindings_bindAll) [] rfl hproper h₅
  have hset : SetBy document (fieldsOf templateRoot defaultEncoding limit exclude shared) := by
    simp only [SetBy, fieldsOf, List.forall_mem_cons, List.not_mem_nil, false_implies, implies_true,
      and_true]
    refine ⟨hset₁.imp_right (And.imp_right ?_), hset₂.imp_right (And.imp_right ?_),
      hset₃.imp_right (And.imp_right ?_), hset₄.imp_right (And.imp_right ?_),
      hset₅.imp_right (And.imp_right ?_)⟩ <;>
    · rintro rfl
      simp [fields, fieldsOf, defaults]
  refine ⟨hset.isEntry hproper hknown, _, _, templateRoot, defaultEncoding, limit, exclude, shared,
    rfl, ?_, hset⟩
  rw [← htemplateRoot, ← hdefaultEncoding, ← hlimit, ← hexclude, ← hshared]
  rfl

/-- **A mapping whose entries are fields with values of their kinds is loaded.** -/
theorem exists_load_schema (path : String) (hproper : (Value.dict document).Proper)
    (hentry : ∀ e ∈ document, IsEntry e) : ∃ x, schema.load path (.dict document) = .ok x := by
  obtain ⟨hapart, -⟩ := Value.proper_dict.mp hproper
  have hknown : Schema.unknownKeys (defaults.fields.map (·.1)) document = [] := by
    rw [Schema.unknownKeys_eq_nil_iff]
    intro e he
    cases hentry e he <;> exact ⟨_, by simp [fields, fieldsOf], rfl⟩
  -- each field is written in its kind, if it is written
  obtain ⟨y₁, h₁⟩ := Schema.reads_text.exists_loadsField hapart fun w hw => by
    simpa [isEntry_iff] using hentry (.str "template_root", w) hw
  obtain ⟨y₂, h₂⟩ := Schema.reads_text.exists_loadsField hapart fun w hw => by
    simpa [isEntry_iff] using hentry (.str "default_encoding", w) hw
  obtain ⟨y₃, h₃⟩ := Schema.reads_integer.exists_loadsField hapart fun w hw => by
    simpa [isEntry_iff] using hentry (.str "recursion_limit", w) hw
  obtain ⟨y₄, h₄⟩ := Schema.reads_text.list.exists_loadsField hapart fun w hw => by
    simpa [isEntry_iff] using hentry (.str "exclude", w) hw
  obtain ⟨y₅, h₅⟩ := (Schema.reads_text.dict Schema.reads_any fun _ => rfl).exists_loadsField hapart
    fun w hw => by simpa [isEntry_iff] using hentry (.str "shared_variables", w) hw
  rw [schema_eq]
  exact ⟨_, Schema.load_record_eq_ok_iff.mpr ⟨document, _, rfl, hknown,
    .cons h₁ (.cons h₂ (.cons h₃ (.cons h₄ (.cons h₅ .nil)))), rfl⟩⟩

/-- A mapping with another entry is refused. -/
theorem ofValue_of_not_isEntry (hproper : (Value.dict document).Proper)
    (hentry : ¬ ∀ e ∈ document, IsEntry e) :
    ∃ m, ofValue (.dict document) = .error (.load (.mismatch m)) := by
  have hrefuses : Site.Refuses ⟨"$", schema, .dict document⟩ := by
    refine Site.refuses_iff.mpr ⟨?_, fun b hb fault => hb.faultless schema_faultless⟩
    rintro ⟨x, hx⟩
    exact hentry (load_schema_eq_ok hproper hx).1
  obtain ⟨m, hm⟩ : ∃ m, schema.load "$" (.dict document) = .error (.mismatch m) := hrefuses
  exact ⟨m, by rw [ofValue, hm]⟩

/-- A mapping without one is accepted or refused for its recursion limit. -/
theorem ofValue_of_isEntry (hproper : (Value.dict document).Proper)
    (hentry : ∀ e ∈ document, IsEntry e) :
    (IsConfiguration document ∧ ∃ s, ofValue (.dict document) = .ok s ∧ SetBy document s.fields) ∨
      ∃ n : Int, (.str "recursion_limit", .int n) ∈ document ∧
        ¬ (1 ≤ n ∧ n ≤ maxRecursionLimit) ∧ ofValue (.dict document) = .error (.limit n) := by
  obtain ⟨x, hx⟩ := exists_load_schema "$" hproper hentry
  obtain ⟨-, name, xs, templateRoot, defaultEncoding, limit, exclude, shared, rfl, hof, hset⟩ :=
    load_schema_eq_ok hproper hx
  have hvalue : ofValue (.dict document) =
      ofParts templateRoot defaultEncoding limit exclude shared := by
    rw [ofValue, hx]
    exact hof
  have hlimit : ("recursion_limit", .int limit) ∈
      fieldsOf templateRoot defaultEncoding limit exclude shared := by simp [fieldsOf]
  rw [hvalue, ofParts]
  by_cases hrange : 1 ≤ limit ∧ limit ≤ maxRecursionLimit
  · left
    rw [dif_pos hrange]
    refine ⟨⟨hentry, fun n hn => ?_⟩, _, rfl, ?_⟩
    · -- the limit that is written is the one that is taken
      cases hset.eq_of_mem hproper hn hlimit rfl
      exact hrange
    · have htoNat : (limit.toNat : Int) = limit := by omega
      simpa only [fields, htoNat] using hset
  · right
    rw [dif_neg hrange]
    rcases hset _ hlimit with hwritten | ⟨-, hdefault⟩
    · exact ⟨limit, hwritten, hrange, rfl⟩
    · -- the default is in range
      refine absurd ?_ hrange
      have hvalue : limit = defaults.recursionLimit := by simpa [fields, fieldsOf] using hdefault
      rw [hvalue]
      decide

theorem setBy_nil : SetBy [] defaults.fields :=
  fun _ hf => .inr ⟨by simp, hf⟩

theorem holdsSettings_or_isOverlooked_dict_iff :
    (Value.dict document).HoldsSettings ∨ (Value.dict document).IsOverlooked ↔
      IsConfiguration document := by
  constructor
  · rintro ((h | ⟨_, ⟨⟩, hvalid⟩) | h)
    · cases h
    · exact hvalid
    · cases h
  · intro hvalid
    exact .inl (.inr ⟨document, rfl, hvalid⟩)

/-- A document is accepted with the settings that it writes, or refused for a reason. -/
theorem ofDocument_cases (path : String) {document : Value} (hproper : document.Proper) :
    ((document.HoldsSettings ∨ document.IsOverlooked) ∧
        ∃ s, ofDocument path document = .ok s ∧ SetBy document.entries s.fields) ∨
      ¬ (document.HoldsSettings ∨ document.IsOverlooked) ∧
        ∃ e, ofDocument path document = .error e ∧ RefusedBy path document e := by
  cases hempty : document.isEmpty with
  | true =>
    left
    rw [ofDocument_of_isEmpty path hempty]
    rcases Value.isEmpty_iff.mp hempty with rfl | rfl | hoverlooked
    · exact ⟨.inl (.inl rfl), _, rfl, setBy_nil⟩
    · exact ⟨.inl (.inr ⟨[], rfl, isConfiguration_nil⟩), _, rfl, setBy_nil⟩
    · refine ⟨.inr hoverlooked, _, rfl, ?_⟩
      cases hoverlooked <;> exact setBy_nil
  | false =>
    cases document with
    | dict entries =>
      have hload : ofDocument path (.dict entries) =
          (ofValue (.dict entries)).mapError (.refused path) := by
        simp [ofDocument, hempty]
      rw [hload, holdsSettings_or_isOverlooked_dict_iff]
      by_cases hentry : ∀ e ∈ entries, IsEntry e
      · rcases ofValue_of_isEntry hproper hentry with
          ⟨hvalid, s, hs, hset⟩ | ⟨n, hn, hrange, herror⟩
        · exact .inl ⟨hvalid, s, by rw [hs]; rfl, hset⟩
        · right
          refine ⟨?_, _, by rw [herror]; rfl, .limit hn hrange⟩
          intro hvalid
          exact hrange (hvalid.limit n hn)
      · obtain ⟨m, hm⟩ := ofValue_of_not_isEntry hproper hentry
        obtain ⟨e, he, hother⟩ : ∃ e ∈ entries, ¬ IsEntry e := by simpa using hentry
        right
        refine ⟨?_, _, by rw [hm]; rfl, .mismatch he hother m⟩
        intro hvalid
        exact hentry hvalid.entry
    | null => cases hempty
    | bool | str | number | list | host =>
      right
      refine ⟨?_, .noMapping path, by simp [ofDocument, hempty], .noMapping (by simp)⟩
      rintro ((h | ⟨_, h, -⟩) | h)
      · cases h
      · cases h
      · simp [Value.isEmpty_iff.mpr (.inr (.inr h))] at hempty

/-- **A text is accepted if it is a document that holds settings or is overlooked.** -/
theorem ofText_accepts_iff (path text : String) :
    (∃ s, ofText path text = .ok s) ↔
      ∃ document, Yaml.read text = .ok document ∧
        (document.HoldsSettings ∨ document.IsOverlooked) := by
  rw [ofText]
  cases hread : Yaml.read text with
  | error fault => simp
  | ok document =>
    simp only [Except.ok.injEq, exists_eq_left']
    rcases ofDocument_cases path (Yaml.read_proper hread) with
      ⟨hholds, s, hs, -⟩ | ⟨hnot, e, he, -⟩
    · exact iff_of_true ⟨s, hs⟩ hholds
    · simp [he, hnot]

end

end Settings

end Stencil

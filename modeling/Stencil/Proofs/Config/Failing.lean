import Stencil.Proofs.Config.Loading
import Stencil.Proofs.Number.Sums

/-!
# Where loading fails

Loading under a schema comes to the parts of the value one after the other, and to the options of a
union until one does not refuse the value. A mismatch is reported, or taken by a union for the
refusal of an option. All other faults end the loading as they are, wherever they arise: an integer
that is to be widened is beyond the binary numbers, an enumeration has no members, or a key cannot
be one.

## Main definitions

* `Site.Reaches` says that loading at one site comes to another one.
* `Site.Faults` lists what goes wrong at a site by itself, other than a mismatch.
* `Schema.StringKeyed` says that all mappings in a schema have strings for keys, `Schema.Faultless`
  that nothing but mismatches can go wrong under it.

## Main results

* `Site.load_eq_fault_iff`: loading ends in a fault exactly when it comes to a site that has it.
* `Site.refuses_iff`: a value is refused exactly when it is not loaded and there is no such site.
* `loads_or_refuses_iff`: loading ends in a value or in a mismatch exactly when it comes to no
  integer
  that is too large and to no enumeration without members.
-/

namespace Stencil

/-! ## What loading comes to -/

namespace Site

/-- Loading at one site comes to another one, which is next inside it: what stands in front has been
loaded, or refused by the options of a union. -/
inductive Next : Site → Site → Prop
  | annotated {p : String} {s : Schema} {v : Value} : Next ⟨p, .annotated s, v⟩ ⟨p, s, v⟩
  | option {p : String} {options : List Schema} {s : Schema} {v : Value} {i : Nat}
      (hs : options[i]? = some s)
      (hbefore : ∀ j < i, ∀ t, options[j]? = some t → Refuses ⟨p, t, v⟩) :
      Next ⟨p, .union options, v⟩ ⟨p, s, v⟩
  | item {p : String} {s : Schema} {vs : List Value} {w : Value} {i : Nat} (hw : vs[i]? = some w)
      (hbefore : ∀ j < i, ∀ u, vs[j]? = some u → Loads ⟨itemPath p j, s, u⟩) :
      Next ⟨p, .list s, .list vs⟩ ⟨itemPath p i, s, w⟩
  | component {p : String} {s : Schema} {vs : List Value} {w : Value} {i : Nat}
      (hw : vs[i]? = some w)
      (hbefore : ∀ j < i, ∀ u, vs[j]? = some u → Loads ⟨itemPath p j, s, u⟩) :
      Next ⟨p, .tuple s, .list vs⟩ ⟨itemPath p i, s, w⟩
  | key {p : String} {k v : Schema} {entries : List (Value × Value)} {e : Value × Value} {i : Nat}
      (he : entries[i]? = some e)
      (hbefore : ∀ j < i, ∀ f, entries[j]? = some f → ∃ l, Schema.LoadsEntry p k v f l) :
      Next ⟨p, .dict k v, .dict entries⟩ ⟨keyPath p, k, e.1⟩
  | value {p : String} {k v : Schema} {entries : List (Value × Value)} {e : Value × Value} {i : Nat}
      {key : Loaded} (he : entries[i]? = some e)
      (hbefore : ∀ j < i, ∀ f, entries[j]? = some f → ∃ l, Schema.LoadsEntry p k v f l)
      (hkey : k.load (keyPath p) e.1 = .ok key) :
      Next ⟨p, .dict k v, .dict entries⟩ ⟨valuePath p key, v, e.2⟩
  | field {p name field : String} {fields : List (String × Schema × Option Loaded)} {s : Schema}
      {fallback : Option Loaded} {v w : Value} {entries : List (Value × Value)} {i : Nat}
      (hv : Schema.recordEntries p name v = .ok entries)
      (hknown : Schema.unknownKeys (fields.map (·.1)) entries = [])
      (hf : fields[i]? = some (field, s, fallback)) (hw : Value.lookup field entries = some w)
      (hbefore : ∀ j < i, ∀ g, fields[j]? = some g → ∃ y, Schema.LoadsField p entries g y) :
      Next ⟨p, .recordWith name fields, v⟩ ⟨fieldPath p field, s, w⟩

/-- Loading at one site comes to another one, at any depth. -/
def Reaches : Site → Site → Prop :=
  Relation.ReflTransGen Next

/-- An integer that is to be widened is beyond the binary numbers. -/
def TooLarge (a : Site) : Prop :=
  a.schema = .real ∧ ∃ n, a.raw = .int n ∧ Binary64.integerBound ≤ n.natAbs

/-- A member is looked for in an enumeration that has none. -/
def Memberless (a : Site) : Prop :=
  ∃ name, a.schema = .enumeration name []

/-- What goes wrong at a site by itself, other than a mismatch. -/
inductive Faults : Site → LoadFault → Prop
  | tooLarge {a : Site} (h : a.TooLarge) : Faults a .integerTooLarge
  | memberless {a : Site} (h : a.Memberless) : Faults a .emptyEnumeration
  | unusableKey {p : String} {k v : Schema} {entries : List (Value × Value)} {e : Value × Value}
      {i : Nat} {key value : Loaded} (he : entries[i]? = some e)
      (hbefore : ∀ j < i, ∀ f, entries[j]? = some f → ∃ l, Schema.LoadsEntry p k v f l)
      (hkey : k.load (keyPath p) e.1 = .ok key) (hvalue : v.load (valuePath p key) e.2 = .ok value)
      (hunusable : key.isKey = false) : Faults ⟨p, .dict k v, .dict entries⟩ .unusableKey

variable {a b : Site}

theorem Next.mem_children (h : Next a b) : b.schema ∈ a.schema.children := by
  cases h with
  | annotated | item | component | key | value => simp [Schema.children]
  | option hs => exact List.mem_of_getElem? hs
  | field _ _ hf => exact List.mem_map_of_mem (List.mem_of_getElem? hf)

theorem Reaches.occurs (h : a.Reaches b) : b.schema.Occurs a.schema := by
  induction h with
  | refl => exact .refl
  | tail _ hnext ih => exact ih.head hnext.mem_children

end Site

/-! ## Faults inside lists, mappings and records -/

namespace Schema

section

variable {path : String} {s k v : Schema} {raw : Value} {fault : LoadFault}

theorem loadPlain_error {expected : String} {accepts : Value → Bool}
    (h : loadPlain path expected accepts raw = .error fault) : ∃ m, fault = .mismatch m := by
  unfold loadPlain at h
  split at h <;> cases h
  exact ⟨_, rfl⟩

theorem itemsOf_error (h : itemsOf path raw = .error fault) : ∃ m, fault = .mismatch m := by
  unfold itemsOf at h
  split at h <;> cases h
  exact ⟨_, rfl⟩

theorem recordEntries_error {name : String} (h : recordEntries path name raw = .error fault) :
    ∃ m, fault = .mismatch m := by
  unfold recordEntries at h
  split at h <;> cases h
  exact ⟨_, rfl⟩

theorem loadItems_eq_error_iff {vs : List Value} :
    loadItems (fun p w => s.load p w) path vs = .error fault ↔
      ∃ (i : Nat) (w : Value), vs[i]? = some w ∧ s.load (itemPath path i) w = .error fault ∧
        ∀ j < i, ∀ u, vs[j]? = some u → Site.Loads ⟨itemPath path j, s, u⟩ := by
  rw [loadItems, mapM_eq_error]
  simp only [List.getElem?_zipIdx, Nat.zero_add, Option.map_eq_some_iff]
  constructor
  · rintro ⟨i, e, ⟨w, hw, rfl⟩, herror, hbefore⟩
    exact ⟨i, w, hw, herror, fun j hj u hu => hbefore j hj (u, j) ⟨u, hu, rfl⟩⟩
  · rintro ⟨i, w, hw, herror, hbefore⟩
    refine ⟨i, (w, i), ⟨w, hw, rfl⟩, herror, ?_⟩
    rintro j hj e ⟨u, hu, rfl⟩
    exact hbefore j hj u hu

theorem loadEntry_eq_error_iff {e : Value × Value} :
    loadEntry (fun p w => k.load p w) (fun p w => v.load p w) path e = .error fault ↔
      k.load (keyPath path) e.1 = .error fault ∨
        ∃ key, k.load (keyPath path) e.1 = .ok key ∧
          (v.load (valuePath path key) e.2 = .error fault ∨
            ∃ value, v.load (valuePath path key) e.2 = .ok value ∧ key.isKey = false ∧
              fault = .unusableKey) := by
  simp only [loadEntry, bind_eq_error]
  refine or_congr_right (exists_congr fun key => and_congr_right fun _ => or_congr_right
    (exists_congr fun value => and_congr_right fun _ => ?_))
  cases key.isKey <;> simp [pure, Except.pure, throw, throwThe, MonadExceptOf.throw, eq_comm]

/-- A mapping fails as the first of its entries that fails. -/
theorem load_dict_eq_fault_iff (hfault : ∀ m, fault ≠ .mismatch m) :
    (dict k v).load path raw = .error fault ↔
      ∃ (entries : List (Value × Value)) (i : Nat) (e : Value × Value),
        raw = .dict entries ∧ entries[i]? = some e ∧
          loadEntry (fun p w => k.load p w) (fun p w => v.load p w) path e = .error fault ∧
          ∀ j < i, ∀ f, entries[j]? = some f → ∃ l, LoadsEntry path k v f l := by
  cases raw with
  | dict entries =>
    rw [load, bind_eq_error, mapM_eq_error]
    simp only [loadEntry_eq_ok_iff]
    constructor
    · rintro (⟨i, e, he, herror, hbefore⟩ | ⟨loaded, -, h⟩)
      · exact ⟨entries, i, e, rfl, he, herror, hbefore⟩
      · cases h
    · rintro ⟨_, i, e, ⟨⟩, he, herror, hbefore⟩
      exact .inl ⟨i, e, he, herror, hbefore⟩
  | null | bool | str | number | list | host =>
    rw [load]
    · simp [(hfault _).symm]
    · rintro entries ⟨⟩

/-- A list or a tuple fails as its items do. -/
theorem load_items_eq_fault_iff {gather : List Loaded → Loaded}
    (hfault : ∀ m, fault ≠ .mismatch m) :
    (do return gather (← loadItems (fun p w => s.load p w) path (← itemsOf path raw))) =
        .error fault ↔
      ∃ vs, raw = .list vs ∧ loadItems (fun p w => s.load p w) path vs = .error fault := by
  rw [bind_eq_error]
  constructor
  · rintro (h | ⟨vs, hvs, h⟩)
    · obtain ⟨m, hm⟩ := itemsOf_error h
      exact absurd hm (hfault m)
    · refine ⟨vs, itemsOf_eq_ok_iff.mp hvs, ?_⟩
      rcases bind_eq_error.mp h with h | ⟨xs, -, h⟩
      · exact h
      · cases h
  · rintro ⟨vs, rfl, h⟩
    exact .inr ⟨vs, rfl, bind_eq_error.mpr (.inl h)⟩

theorem loadField_eq_fault_iff {entries : List (Value × Value)} {name : String}
    {fallback : Option Loaded} (hfault : ∀ m, fault ≠ .mismatch m) :
    loadField (fun p w => s.load p w) path entries name fallback = .error fault ↔
      ∃ w, Value.lookup name entries = some w ∧ s.load (fieldPath path name) w = .error fault := by
  unfold loadField
  cases hw : Value.lookup name entries with
  | some w => simp
  | none => cases fallback <;> simp [(hfault _).symm]

/-- A record fails as the first of its fields that fails. -/
theorem load_record_eq_fault_iff {name : String}
    {fields : List (String × Schema × Option Loaded)} (hfault : ∀ m, fault ≠ .mismatch m) :
    (recordWith name fields).load path raw = .error fault ↔
      ∃ (entries : List (Value × Value)) (i : Nat) (f : String × Schema × Option Loaded)
        (w : Value),
        recordEntries path name raw = .ok entries ∧ unknownKeys (fields.map (·.1)) entries = [] ∧
          fields[i]? = some f ∧ Value.lookup f.1 entries = some w ∧
          f.2.1.load (fieldPath path f.1) w = .error fault ∧
          ∀ j < i, ∀ g, fields[j]? = some g → ∃ y, LoadsField path entries g y := by
  rw [load, bind_eq_error]
  constructor
  · rintro (h | ⟨entries, hentries, h⟩)
    · obtain ⟨m, hm⟩ := recordEntries_error h
      exact absurd hm (hfault m)
    · simp only at h
      split at h
      · next hknown =>
        rw [bind_eq_error, loadFields_eq_mapM, mapM_eq_error] at h
        simp only [map_eq_error, loadField_eq_fault_iff hfault, loadField_eq_ok_iff] at h
        rcases h with ⟨i, f, hf, ⟨w, hw, herror⟩, hbefore⟩ | ⟨xs, -, h⟩
        · exact ⟨entries, i, f, w, hentries, List.isEmpty_iff.mp hknown, hf, hw, herror, hbefore⟩
        · cases h
      · cases h
        exact absurd rfl (hfault _)
  · rintro ⟨entries, i, f, w, hentries, hknown, hf, hw, herror, hbefore⟩
    refine .inr ⟨entries, hentries, ?_⟩
    simp only [hknown]
    refine bind_eq_error.mpr (.inl ?_)
    rw [loadFields_eq_mapM, mapM_eq_error]
    simp only [map_eq_error, loadField_eq_fault_iff hfault, loadField_eq_ok_iff]
    exact ⟨i, f, hf, ⟨w, hw, herror⟩, hbefore⟩

end

end Schema

/-! ## Faults -/

namespace Site

section

variable {a b : Site} {fault : LoadFault}

/-- What goes wrong at a site ends the loading there. -/
theorem Faults.load_eq (h : a.Faults fault) : a.load = .error fault := by
  cases h with
  | tooLarge h =>
    obtain ⟨p, s, v⟩ := a
    obtain ⟨rfl, n, rfl, hn⟩ := h
    rw [load, Schema.load, Schema.loadReal, Schema.widen, Binary64.ofInt?_eq_none_iff.mpr hn]
  | memberless h =>
    obtain ⟨p, s, v⟩ := a
    obtain ⟨name, rfl⟩ := h
    rw [load, Schema.load, Schema.loadMember]
    cases v <;> rfl
  | unusableKey he hbefore hkey hvalue hunusable =>
    have hescapes (m : Mismatch) : LoadFault.unusableKey ≠ .mismatch m := by
      rintro ⟨⟩
    refine (Schema.load_dict_eq_fault_iff hescapes).mpr ⟨_, _, _, rfl, he, ?_, hbefore⟩
    exact Schema.loadEntry_eq_error_iff.mpr (.inr ⟨_, hkey, .inr ⟨_, hvalue, hunusable, rfl⟩⟩)

/-- A fault of a site that loading comes to next ends the loading. -/
theorem Next.load_eq (h : Next a b) (hfault : ∀ m, fault ≠ .mismatch m)
    (hb : b.load = .error fault) : a.load = .error fault := by
  cases h with
  | annotated =>
    rw [load, Schema.load]
    exact hb
  | option hs hbefore =>
    rw [load, Schema.load, Schema.loadFirst_eq_iff (by simpa using hfault)]
    exact ⟨_, _, hs, hb, hbefore⟩
  | item hw hbefore | component hw hbefore =>
    rw [load, Schema.load, Schema.load_items_eq_fault_iff hfault]
    exact ⟨_, rfl, Schema.loadItems_eq_error_iff.mpr ⟨_, _, hw, hb, hbefore⟩⟩
  | key he hbefore =>
    refine (Schema.load_dict_eq_fault_iff hfault).mpr ⟨_, _, _, rfl, he, ?_, hbefore⟩
    exact Schema.loadEntry_eq_error_iff.mpr (.inl hb)
  | value he hbefore hkey =>
    refine (Schema.load_dict_eq_fault_iff hfault).mpr ⟨_, _, _, rfl, he, ?_, hbefore⟩
    exact Schema.loadEntry_eq_error_iff.mpr (.inr ⟨_, hkey, .inl hb⟩)
  | field hv hknown hf hw hbefore =>
    exact (Schema.load_record_eq_fault_iff hfault).mpr
      ⟨_, _, _, _, hv, hknown, hf, hw, hb, hbefore⟩

/-- A fault that ends the loading is of the site itself, or of one that loading comes to next. -/
theorem cases_of_load_eq (hfault : ∀ m, fault ≠ .mismatch m) (h : a.load = .error fault) :
    a.Faults fault ∨ ∃ b, Next a b ∧ b.load = .error fault := by
  obtain ⟨p, s, v⟩ := a
  change s.load p v = .error fault at h
  cases s with
  | any =>
    rw [Schema.load] at h
    cases h
  | unsupported =>
    rw [Schema.load] at h
    cases h
    exact absurd rfl (hfault _)
  | null =>
    by_cases hv : v = .null
    · rw [hv, Schema.load] at h
      cases h
    · rw [Schema.load_null_of_ne hv] at h
      cases h
      exact absurd rfl (hfault _)
  | text | integer | boolean =>
    rw [Schema.load] at h
    obtain ⟨m, hm⟩ := Schema.loadPlain_error h
    exact absurd hm (hfault m)
  | literal values =>
    rw [Schema.load] at h
    split at h <;> cases h
    exact absurd rfl (hfault _)
  | real =>
    rw [Schema.load] at h
    unfold Schema.loadReal Schema.widen at h
    split at h
    · next n =>
      split at h
      · cases h
      · next hn =>
        cases h
        exact .inl (.tooLarge ⟨rfl, n, rfl, Binary64.ofInt?_eq_none_iff.mp hn⟩)
    · cases h
    · cases h
      exact absurd rfl (hfault _)
  | enumeration name members =>
    rw [Schema.load, Schema.loadMember] at h
    split at h
    · cases h
    · cases members with
      | nil =>
        cases h
        exact .inl (.memberless ⟨name, rfl⟩)
      | cons =>
        cases h
        exact absurd rfl (hfault _)
  | annotated s =>
    rw [Schema.load] at h
    exact .inr ⟨_, .annotated, h⟩
  | union options =>
    rw [Schema.load, Schema.loadFirst_eq_iff (by simpa using hfault)] at h
    obtain ⟨i, t, ht, herror, hbefore⟩ := h
    exact .inr ⟨_, .option ht hbefore, herror⟩
  | list s =>
    rw [Schema.load, Schema.load_items_eq_fault_iff hfault] at h
    obtain ⟨vs, rfl, h⟩ := h
    obtain ⟨i, w, hw, herror, hbefore⟩ := Schema.loadItems_eq_error_iff.mp h
    exact .inr ⟨_, .item hw hbefore, herror⟩
  | tuple s =>
    rw [Schema.load, Schema.load_items_eq_fault_iff hfault] at h
    obtain ⟨vs, rfl, h⟩ := h
    obtain ⟨i, w, hw, herror, hbefore⟩ := Schema.loadItems_eq_error_iff.mp h
    exact .inr ⟨_, .component hw hbefore, herror⟩
  | dict k v =>
    obtain ⟨entries, i, e, rfl, he, h, hbefore⟩ := (Schema.load_dict_eq_fault_iff hfault).mp h
    rcases Schema.loadEntry_eq_error_iff.mp h with
      h | ⟨key, hkey, h | ⟨value, hvalue, hunusable, rfl⟩⟩
    · exact .inr ⟨_, .key he hbefore, h⟩
    · exact .inr ⟨_, .value he hbefore hkey, h⟩
    · exact .inl (.unusableKey he hbefore hkey hvalue hunusable)
  | recordWith name fields =>
    obtain ⟨entries, i, ⟨field, s, fallback⟩, w, hv, hknown, hf, hw, herror, hbefore⟩ :=
      (Schema.load_record_eq_fault_iff hfault).mp h
    exact .inr ⟨_, .field hv hknown hf hw hbefore, herror⟩

/-- **Loading ends in a fault exactly when it comes to a site that has it.** -/
theorem load_eq_fault_iff (hfault : ∀ m, fault ≠ .mismatch m) :
    a.load = .error fault ↔ ∃ b, a.Reaches b ∧ b.Faults fault := by
  constructor
  · -- a site that comes next has a schema out of those that this one is made of
    intro h
    induction hs : a.schema using Schema.induction generalizing a with
    | step s ih =>
      rcases cases_of_load_eq hfault h with hfaults | ⟨b, hnext, hb⟩
      · exact ⟨a, .refl, hfaults⟩
      · obtain ⟨c, hreaches, hfaults⟩ := ih b.schema (hs ▸ hnext.mem_children) hb rfl
        exact ⟨c, .head hnext hreaches, hfaults⟩
  · -- step by step from the site that has the fault back to this one
    rintro ⟨b, hreaches, hfaults⟩
    induction hreaches using Relation.ReflTransGen.head_induction_on with
    | refl => exact hfaults.load_eq
    | head hnext _ ih => exact hnext.load_eq hfault ih

end

end Site

/-! ## Schemas with fewer faults -/

/-- Nothing goes wrong by itself under a schema: it widens no integers, lists a member at least if it
is an enumeration, and has strings for keys if it is one of mappings. -/
def Schema.OwnFaultless : Schema → Prop
  | .real => False
  | .enumeration _ members => members ≠ []
  | .dict k _ => k = .text
  | _ => True

/-- Nothing goes wrong under a schema, apart from mismatches. -/
def Schema.Faultless : Schema → Prop :=
  Schema.Everywhere Schema.OwnFaultless

/-- A string can be a key. -/
theorem Schema.isKey_of_load_text {path : String} {raw : Value} {key : Loaded}
    (h : Schema.text.load path raw = .ok key) : key.isKey = true := by
  cases load_eq_ok_iff.mp h with
  | text => rfl

namespace Site

variable {a b : Site} {fault : LoadFault}

/-- Loading under such a schema comes to no fault. -/
theorem Reaches.faultless (h : a.Reaches b) (ha : a.schema.Faultless) : ¬ b.Faults fault := by
  intro hfaults
  have hown := ha b.schema h.occurs
  cases hfaults with
  | tooLarge h =>
    rw [h.1] at hown
    exact hown
  | memberless h =>
    obtain ⟨name, hname⟩ := h
    rw [hname] at hown
    exact hown rfl
  | unusableKey he hbefore hkey hvalue hunusable =>
    obtain rfl : _ = Schema.text := hown
    cases hunusable.symm.trans (Schema.isKey_of_load_text hkey)

theorem loads_or_refuses_iff_not :
    a.Loads ∨ a.Refuses ↔ ¬ ∃ fault, (∀ m, fault ≠ .mismatch m) ∧ a.load = .error fault := by
  unfold Loads Refuses
  cases a.load with
  | ok x => simp
  | error fault => cases fault <;> simp

theorem Faults.ne_mismatch (h : a.Faults fault) (m : Mismatch) : fault ≠ .mismatch m := by
  cases h <;> simp

/-- **A value is refused exactly when it is not loaded and loading comes to no fault.** -/
theorem refuses_iff :
    a.Refuses ↔ ¬ a.Loads ∧ ∀ b, a.Reaches b → ∀ fault, ¬ b.Faults fault := by
  constructor
  · rintro ⟨m, hm⟩
    constructor
    · rintro ⟨x, hx⟩
      cases hx.symm.trans hm
    · intro b hb fault hfaults
      have hload := (load_eq_fault_iff hfaults.ne_mismatch).mpr ⟨b, hb, hfaults⟩
      cases hload.symm.trans hm
      exact hfaults.ne_mismatch m rfl
  · rintro ⟨hnot, hnone⟩
    refine (loads_or_refuses_iff_not.mpr ?_).resolve_left hnot
    rintro ⟨fault, hfault, hload⟩
    obtain ⟨b, hb, hfaults⟩ := (load_eq_fault_iff hfault).mp hload
    exact hnone b hb fault hfaults

end Site

end Stencil

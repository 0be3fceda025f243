import Stencil.Proofs.Config.Loading

/-!
# Parts of what is loaded

Where a raw value is loaded under a schema, its parts are loaded under the schemas inside that
schema: the items of a list, the keys and values of a mapping, the fields that are written of a
record. What holds wherever a value is loaded holds at every depth, because the parts are loaded as
the whole is.

## Main definitions

* `Loading` is a site with the value that it is loaded as.
* `Loading.Part` says that one loading is directly part of another one, `Loading.Contains` that it
  is
  so at any depth.

## Main results

* `Loading.Contains.succeeds`: all parts of what is loaded are loaded.
-/

namespace Stencil

/-- A site, and the value that it is loaded as. -/
structure Loading where
  site : Site
  value : Loaded

namespace Loading

/-- Loading ends in the value. -/
def Succeeds (a : Loading) : Prop :=
  a.site.load = .ok a.value

/-- One loading is part of another one. -/
inductive Part : Loading → Loading → Prop
  | annotated {p : String} {s : Schema} {v : Value} {x : Loaded} :
      Part ⟨⟨p, .annotated s, v⟩, x⟩ ⟨⟨p, s, v⟩, x⟩
  /-- A union loads as the first of its options that does not refuse the value. -/
  | option {p : String} {options : List Schema} {s : Schema} {v : Value} {x : Loaded} {i : Nat}
      (hs : options[i]? = some s) (h : ¬ Site.Refuses ⟨p, s, v⟩)
      (hbefore : ∀ j < i, ∀ t, options[j]? = some t → Site.Refuses ⟨p, t, v⟩) :
      Part ⟨⟨p, .union options, v⟩, x⟩ ⟨⟨p, s, v⟩, x⟩
  | item {p : String} {s : Schema} {vs : List Value} {xs : List Loaded} {i : Nat} {w : Value}
      {y : Loaded} (hw : vs[i]? = some w) (hy : xs[i]? = some y) :
      Part ⟨⟨p, .list s, .list vs⟩, .list xs⟩ ⟨⟨itemPath p i, s, w⟩, y⟩
  | component {p : String} {s : Schema} {vs : List Value} {xs : List Loaded} {i : Nat} {w : Value}
      {y : Loaded} (hw : vs[i]? = some w) (hy : xs[i]? = some y) :
      Part ⟨⟨p, .tuple s, .list vs⟩, .tuple xs⟩ ⟨⟨itemPath p i, s, w⟩, y⟩
  | key {p : String} {k v : Schema} {entries : List (Value × Value)}
      {loaded : List (Loaded × Loaded)} {i : Nat} {e : Value × Value} {l : Loaded × Loaded}
      (h : List.Forall₂ (Schema.LoadsEntry p k v) entries loaded) (he : entries[i]? = some e)
      (hl : loaded[i]? = some l) :
      Part ⟨⟨p, .dict k v, .dict entries⟩, .dict (Loaded.bindAll loaded)⟩
        ⟨⟨keyPath p, k, e.1⟩, l.1⟩
  | value {p : String} {k v : Schema} {entries : List (Value × Value)}
      {loaded : List (Loaded × Loaded)} {i : Nat} {e : Value × Value} {l : Loaded × Loaded}
      (h : List.Forall₂ (Schema.LoadsEntry p k v) entries loaded) (he : entries[i]? = some e)
      (hl : loaded[i]? = some l) :
      Part ⟨⟨p, .dict k v, .dict entries⟩, .dict (Loaded.bindAll loaded)⟩
        ⟨⟨valuePath p l.1, v, e.2⟩, l.2⟩
  | field {p name field : String} {fields : List (String × Schema × Option Loaded)} {s : Schema}
      {fallback : Option Loaded} {v w : Value} {entries : List (Value × Value)}
      {xs : List (String × Loaded)} {i : Nat} {y : Loaded}
      (hv : Schema.recordEntries p name v = .ok entries)
      (hf : fields[i]? = some (field, s, fallback)) (hw : Value.lookup field entries = some w)
      (hy : xs[i]? = some (field, y)) :
      Part ⟨⟨p, .recordWith name fields, v⟩, .record name xs⟩ ⟨⟨fieldPath p field, s, w⟩, y⟩

/-- One loading is part of another one, at any depth; each is part of itself. -/
def Contains : Loading → Loading → Prop :=
  Relation.ReflTransGen Part

variable {a b : Loading}

theorem Part.mem_children (h : Part a b) : b.site.schema ∈ a.site.schema.children := by
  cases h with
  | annotated | item | component | key | value => simp [Schema.children]
  | option hs => exact List.mem_of_getElem? hs
  | field hv hf => exact List.mem_map_of_mem (List.mem_of_getElem? hf)

theorem Contains.occurs (h : a.Contains b) : b.site.schema.Occurs a.site.schema := by
  induction h with
  | refl => exact .refl
  | tail _ hpart ih => exact ih.head hpart.mem_children

/-- A part of what is loaded is loaded. -/
theorem Part.succeeds (h : Part a b) (ha : a.Succeeds) : b.Succeeds := by
  have hgives := Schema.load_eq_ok_iff.mp ha
  cases h with
  | annotated =>
    cases hgives with
    | annotated h => exact h
  | option hs hsettles hbefore =>
    cases hgives with
    | union ht h hbefore' =>
      -- neither option stands before the other
      rcases Nat.lt_trichotomy _ _ with hlt | heq | hgt
      · exact absurd (hbefore' _ hlt _ hs) hsettles
      · subst heq
        cases hs.symm.trans ht
        exact h
      · obtain ⟨m, hm⟩ := hbefore _ hgt _ ht
        cases hm.symm.trans h
  | item hw hy =>
    cases hgives with
    | list h => exact h.item _ _ _ hw hy
  | component hw hy =>
    cases hgives with
    | tuple h => exact h.item _ _ _ hw hy
  | key h he hl => exact (forall₂_getElem? h he hl).key
  | value h he hl => exact (forall₂_getElem? h he hl).value
  | field hv hf hw hy =>
    cases hgives with
    | record hv' _ h =>
      cases hv.symm.trans hv'
      cases forall₂_getElem? h hf hy with
      | written hw' h =>
        cases hw.symm.trans hw'
        exact h
      | left hw' => cases hw.symm.trans hw'

/-- **All parts of what is loaded are loaded.** -/
theorem Contains.succeeds (h : a.Contains b) (ha : a.Succeeds) : b.Succeeds := by
  induction h with
  | refl => exact ha
  | tail _ hpart ih => exact hpart.succeeds ih

end Loading

end Stencil

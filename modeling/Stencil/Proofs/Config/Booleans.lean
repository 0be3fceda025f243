import Stencil.Proofs.Config.Failing
import Stencil.Proofs.Config.Inhabiting
import Stencil.Proofs.Config.Raw

/-!
# Booleans under schemas of numbers and strings

Where a number is expected a boolean is refused. Where values are listed they are compared, and a
boolean is equal to zero or to one: a literal or an enumeration that lists this number takes the
boolean for it. So a raw value with a boolean in it is loaded, under a schema that does not ask for
booleans, only if each of its booleans stands at such a list.

## Main definitions

* `Schema.WithoutBooleans` says that nothing in a schema asks for a boolean.
* `Schema.ListsNumberOf` says that a schema lists the number that a boolean is equal to.
* `Schema.BooleansListed` says that every boolean in a raw value stands where a schema does so.

## Main results

* `Schema.booleansListed_of_load`: what is loaded has all its booleans at such lists.
* `booleans_refused_iff`: no raw value with a boolean in it is loaded under a schema, or under any
  schema inside it, exactly when the schema has no such list.
-/

namespace Stencil

/-- An integer or a string. -/
inductive Value.IsIntegerOrString : Value → Prop
  | integer (n : Int) : IsIntegerOrString (.int n)
  | text (s : String) : IsIntegerOrString (.str s)

namespace Schema

/-! ## Schemas that do not ask for booleans -/

/-- A schema by itself does not ask for a boolean: it does not take all values, and all values that
it lists are integers and strings. -/
def OwnWithoutBooleans : Schema → Prop
  | any => False
  | boolean => False
  | literal values => ∀ v ∈ values, v.IsIntegerOrString
  | enumeration _ members => ∀ m ∈ members, m.2.IsIntegerOrString
  | _ => True

/-- Nothing in a schema asks for a boolean. -/
def WithoutBooleans : Schema → Prop :=
  Everywhere OwnWithoutBooleans

/-- A schema lists the number that a boolean is equal to. -/
def ListsNumberOf (b : Bool) : Schema → Prop
  | literal values => .int b.toInt ∈ values
  | enumeration _ members => ∃ m ∈ members, m.2 = .int b.toInt
  | _ => False

/-- Every boolean in a raw value stands where a schema lists the number that it is equal to. -/
inductive BooleansListed : Schema → Value → Prop
  | none {s : Schema} {v : Value} (h : ¬ v.HasBoolean) : BooleansListed s v
  | listed {s : Schema} {b : Bool} (h : s.ListsNumberOf b) : BooleansListed s (.bool b)
  | annotated {s : Schema} {v : Value} (h : BooleansListed s v) : BooleansListed (.annotated s) v
  | option {options : List Schema} {s : Schema} {v : Value} (hs : s ∈ options)
      (h : BooleansListed s v) : BooleansListed (.union options) v
  | list {s : Schema} {items : List Value} (h : ∀ v ∈ items, BooleansListed s v) :
      BooleansListed (.list s) (.list items)
  | tuple {s : Schema} {items : List Value} (h : ∀ v ∈ items, BooleansListed s v) :
      BooleansListed (.tuple s) (.list items)
  | dict {k v : Schema} {entries : List (Value × Value)}
      (hk : ∀ e ∈ entries, BooleansListed k e.1) (hv : ∀ e ∈ entries, BooleansListed v e.2) :
      BooleansListed (.dict k v) (.dict entries)
  | record {name : String} {fields : List (String × Schema × Option Loaded)}
      {entries : List (Value × Value)} (hnamed : ∀ e ∈ entries, ∃ f ∈ fields, e.1 = .str f.1)
      (h : ∀ e ∈ entries, ∀ f ∈ fields, e.1 = .str f.1 → BooleansListed f.2.1 e.2) :
      BooleansListed (.recordWith name fields) (.dict entries)

section

variable {path : String} {s : Schema} {raw v w : Value} {b : Bool} {x : Loaded}

/-- A value that is equal to an integer or a string is the boolean that the integer is equal to, or
has no boolean in it. -/
theorem bool_or_none_of_same (hw : w.IsIntegerOrString) (h : v.same w = true) :
    (∃ b, v = .bool b ∧ w = .int b.toInt) ∨ ¬ v.HasBoolean := by
  have hleaf (hchildren : v.children = []) (hne : ∀ b, v ≠ .bool b) : ¬ v.HasBoolean := by
    rw [Value.hasBoolean_iff]
    simp [hchildren, hne]
  cases hw with
  | text s =>
    rw [Value.same_str_iff] at h
    subst h
    exact .inr (hleaf rfl (by simp))
  | integer n =>
    cases v with
    | bool b => exact .inl ⟨b, rfl, congrArg Value.int (Value.same_bool_int_iff.mp h)⟩
    | number => exact .inr (hleaf rfl (by simp))
    | null | str | list | dict | host => simp [Value.same] at h

/-- A schema loads a boolean for which it lists the number. -/
theorem ListsNumberOf.loads (path : String) (h : s.ListsNumberOf b) :
    Site.Loads ⟨path, s, .bool b⟩ := by
  have hsame : (Value.bool b).same (.int b.toInt) = true := Value.same_bool_int_iff.mpr rfl
  cases s with
  | literal values =>
    have hany : values.any (Value.bool b).same = true := List.any_eq_true.mpr ⟨_, h, hsame⟩
    exact ⟨_, Gives.load_eq (.literal hany)⟩
  | enumeration name members =>
    obtain ⟨m, hm, hvalue⟩ := h
    obtain ⟨n, hn⟩ : ∃ n, memberOf? members (.bool b) = some n := by
      rw [← Option.isSome_iff_exists]
      simp only [memberOf?, Option.none_or, memberName, Option.isSome_map, List.find?_isSome]
      exact ⟨m, hm, hvalue ▸ hsame⟩
    exact ⟨_, Gives.load_eq (.member hn)⟩
  | _ => cases h

/-! ## What is loaded has its booleans at lists -/

theorem booleansListed_of_member {name m : String} {members : List (String × Value)}
    (hplain : ∀ m ∈ members, m.2.IsIntegerOrString) (h : memberOf? members raw = some m) :
    BooleansListed (.enumeration name members) raw := by
  rcases Option.or_eq_some_iff.mp h with h | ⟨-, h⟩
  · -- a name is a string
    split at h
    · refine .none ?_
      rw [Value.hasBoolean_iff]
      simp [Value.children]
    · cases h
  · obtain ⟨e, he, -⟩ := Option.map_eq_some_iff.mp h
    have hmem := List.mem_of_find?_eq_some he
    have hsame : raw.same e.2 = true := by simpa using List.find?_some he
    rcases bool_or_none_of_same (hplain e hmem) hsame with ⟨b, rfl, hvalue⟩ | hnone
    · exact .listed ⟨e, hmem, hvalue⟩
    · exact .none hnone

theorem LoadsItems.exists_of_mem {vs : List Value} {xs : List Loaded} (h : LoadsItems path s vs xs)
    (hw : w ∈ vs) : ∃ p y, s.load p w = .ok y := by
  obtain ⟨i, hi⟩ := List.mem_iff_getElem?.mp hw
  have hlt : i < xs.length := by
    rw [h.length]
    exact (List.getElem?_eq_some_iff.mp hi).1
  exact ⟨itemPath path i, xs[i], h.item i w _ hi (List.getElem?_eq_getElem hlt)⟩

theorem recordEntries_eq_ok {name : String} {entries : List (Value × Value)}
    (h : recordEntries path name raw = .ok entries) :
    (raw = .null ∧ entries = []) ∨ raw = .dict entries := by
  unfold recordEntries at h
  split at h <;> cases h
  · exact .inl ⟨rfl, rfl⟩
  · exact .inr rfl

/-- An entry of a mapping is what the field of its name is loaded from. -/
theorem LoadsField.load_of_mem {entries : List (Value × Value)} {e : Value × Value}
    {f : String × Schema × Option Loaded} {y : String × Loaded}
    (hapart : entries.Pairwise fun e f => f.1.same e.1 = false)
    (h : LoadsField path entries f y) (he : e ∈ entries) (hname : e.1 = .str f.1) :
    f.2.1.load (fieldPath path f.1) e.2 = .ok y.2 := by
  have hlookup : Value.lookup f.1 entries = some e.2 :=
    (Value.lookup_eq_some_iff hapart).mpr (hname ▸ he)
  cases h with
  | written hw h =>
    cases hw.symm.trans hlookup
    exact h
  | left hw => cases hw.symm.trans hlookup

/-- **What is loaded under a schema that does not ask for booleans has each of its booleans where the
schema lists the number that it is equal to.** -/
theorem booleansListed_of_load (hs : s.WithoutBooleans) (hraw : raw.Proper)
    (h : s.load path raw = .ok x) : s.BooleansListed raw := by
  induction s using Schema.induction generalizing path raw x with
  | step s ih =>
    have hown := (everywhere_iff.mp hs).1
    have inside {t : Schema} (ht : t ∈ s.children) {p : String} {w : Value} {y : Loaded}
        (hw : w.Proper) (hy : t.load p w = .ok y) : t.BooleansListed w :=
      ih t ht (hs.of_mem_children ht) hw hy
    have leaf {v : Value} (hleaf : v.children = []) (hne : ∀ b, v ≠ .bool b) :
        s.BooleansListed v := by
      refine .none ?_
      rw [Value.hasBoolean_iff]
      simp [hleaf, hne]
    cases load_eq_ok_iff.mp h with
    | any | boolean => cases hown
    | text | integer | real | widened | null => exact leaf rfl (by simp)
    | literal hany =>
      obtain ⟨w, hw, hsame⟩ := List.any_eq_true.mp hany
      rcases bool_or_none_of_same (hown w hw) hsame with ⟨b, rfl, rfl⟩ | hnone
      · exact .listed hw
      · exact .none hnone
    | member hm => exact booleansListed_of_member hown hm
    | annotated h => exact .annotated (inside (.head _) hraw h)
    | union ht h =>
      have hmem := List.mem_of_getElem? ht
      exact .option hmem (inside hmem hraw h)
    | list hitems =>
      refine .list fun w hw => ?_
      obtain ⟨p, y, hy⟩ := hitems.exists_of_mem hw
      exact inside (.head _) (Value.proper_list.mp hraw w hw) hy
    | tuple hitems =>
      refine .tuple fun w hw => ?_
      obtain ⟨p, y, hy⟩ := hitems.exists_of_mem hw
      exact inside (.head _) (Value.proper_list.mp hraw w hw) hy
    | dict hentries =>
      obtain ⟨-, hproper⟩ := Value.proper_dict.mp hraw
      refine .dict (fun e he => ?_) (fun e he => ?_)
      · obtain ⟨l, -, hl⟩ := exists_of_forall₂ hentries.flip he
        exact inside (.head _) (hproper e he).1 hl.key
      · obtain ⟨l, -, hl⟩ := exists_of_forall₂ hentries.flip he
        exact inside (.tail _ (.head _)) (hproper e he).2 hl.value
    | @record name fields raw entries xs hv hknown hfields =>
      rcases recordEntries_eq_ok hv with ⟨rfl, rfl⟩ | rfl
      · exact leaf rfl (by simp)
      · obtain ⟨hapart, hproper⟩ := Value.proper_dict.mp hraw
        refine .record (fun e he => ?_) (fun e he f hf hname => ?_)
        · obtain ⟨n, hn, hname⟩ := unknownKeys_eq_nil_iff.mp hknown e he
          obtain ⟨f, hf, rfl⟩ := List.mem_map.mp hn
          exact ⟨f, hf, hname⟩
        · obtain ⟨y, -, hy⟩ := exists_of_forall₂ hfields.flip hf
          exact inside (List.mem_map_of_mem hf) (hproper e he).2 (hy.load_of_mem hapart he hname)

/-- A boolean at a list has a schema that lists its number. -/
theorem BooleansListed.exists_listsNumberOf (h : s.BooleansListed v) (hb : (Value.bool b).Within v) :
    ∃ t : Schema, t.Occurs s ∧ t.ListsNumberOf b := by
  induction s using Schema.induction generalizing v with
  | step s ih =>
    have inside {t : Schema} (ht : t ∈ s.children) {w : Value} (hw : t.BooleansListed w)
        (hb : (Value.bool b).Within w) : ∃ u : Schema, u.Occurs s ∧ u.ListsNumberOf b := by
      obtain ⟨u, hu, hlists⟩ := ih t ht hw hb
      exact ⟨u, hu.tail ht, hlists⟩
    cases h with
    | none h => exact absurd ⟨b, hb⟩ h
    | @listed _ c h =>
      -- nothing stands in a boolean but the boolean itself
      rcases Value.within_iff.mp hb with heq | ⟨w, hw, -⟩
      · cases heq
        exact ⟨s, .refl, h⟩
      · cases hw
    | annotated h => exact inside (.head _) h hb
    | option ht h => exact inside ht h hb
    | list h | tuple h =>
      rcases Value.within_iff.mp hb with heq | ⟨w, hw, hb⟩
      · cases heq
      · exact inside (.head _) (h w hw) hb
    | dict hk hv =>
      rcases Value.within_iff.mp hb with heq | ⟨w, hw, hb⟩
      · cases heq
      · rcases List.mem_append.mp hw with hw | hw <;> obtain ⟨e, he, rfl⟩ := List.mem_map.mp hw
        · exact inside (.head _) (hk e he) hb
        · exact inside (.tail _ (.head _)) (hv e he) hb
    | record hnamed h =>
      rcases Value.within_iff.mp hb with heq | ⟨w, hw, hb⟩
      · cases heq
      · rcases List.mem_append.mp hw with hw | hw <;> obtain ⟨e, he, rfl⟩ := List.mem_map.mp hw <;>
          obtain ⟨f, hf, hname⟩ := hnamed e he
        · -- a key is a name
          rw [hname] at hb
          rcases Value.within_iff.mp hb with heq | ⟨w, hw, -⟩
          · cases heq
          · cases hw
        · exact inside (List.mem_map_of_mem hf) (h e he f hf hname) hb

end

end Schema

/-- **Booleans are refused exactly where the numbers that they are equal to are not listed.** Under a
schema that does not ask for booleans, and under each schema inside it, no raw value with the boolean
`b` in it is loaded exactly when none of them lists the number that `b` is equal to; such a value is
then refused, unless loading comes to a fault. In any case, what is loaded has each of its booleans at
such a list. -/
theorem booleans_refused_iff {s : Schema} (hs : s.WithoutBooleans) (b : Bool) :
    ((∀ t : Schema, t.Occurs s → ∀ path (raw : Value), raw.Proper → (Value.bool b).Within raw →
        ¬ Site.Loads ⟨path, t, raw⟩) ↔ ∀ t : Schema, t.Occurs s → ¬ t.ListsNumberOf b) ∧
      ∀ path (raw : Value), raw.Proper →
        (Site.Loads ⟨path, s, raw⟩ → s.BooleansListed raw) ∧
          ((Value.bool b).Within raw → (∀ t : Schema, t.Occurs s → ¬ t.ListsNumberOf b) →
            (Site.Refuses ⟨path, s, raw⟩ ↔
              ∀ a, Site.Reaches ⟨path, s, raw⟩ a → ∀ fault, ¬ a.Faults fault)) := by
  have hlisted {t : Schema} (ht : t.Occurs s) {path : String} {raw : Value} (hraw : raw.Proper)
      (h : Site.Loads ⟨path, t, raw⟩) : t.BooleansListed raw := by
    obtain ⟨x, hx⟩ := h
    exact Schema.booleansListed_of_load (hs.of_occurs ht) hraw hx
  have hrefused (hnone : ∀ t : Schema, t.Occurs s → ¬ t.ListsNumberOf b) {t : Schema}
      (ht : t.Occurs s) {path : String} {raw : Value} (hraw : raw.Proper)
      (hb : (Value.bool b).Within raw) : ¬ Site.Loads ⟨path, t, raw⟩ := by
    intro h
    obtain ⟨u, hu, hlists⟩ := (hlisted ht hraw h).exists_listsNumberOf hb
    exact hnone u (hu.trans ht) hlists
  constructor
  · constructor
    · -- a boolean by itself is loaded where its number is listed
      intro hlaw t ht hlists
      apply hlaw t ht "$" (.bool b) (Value.proper_bool b) .refl
      exact hlists.loads "$"
    · intro hnone t ht path raw hraw hb
      exact hrefused hnone ht hraw hb
  · intro path raw hraw
    refine ⟨hlisted .refl hraw, fun hb hnone => ?_⟩
    rw [Site.refuses_iff]
    exact and_iff_right (hrefused hnone .refl hraw hb)

/-- A job: how many workers it has, unless that is left to the host, and its level. -/
def jobSchema : Schema :=
  .recordWith "Job"
    [("workers", .union [.integer, .literal [.str "auto", .int 0]], none),
      ("level", .enumeration "Level" [("LOW", .int 2), ("HIGH", .int 3)],
        some (.member "Level" "LOW"))]

/-- A job with true for the number of its workers. -/
def jobDocument : Value :=
  .dict [(.str "workers", .bool true), (.str "level", .str "HIGH")]

theorem jobSchema_everywhere {P : Schema → Prop} (hjob : P jobSchema)
    (hworkers : P (.union [.integer, .literal [.str "auto", .int 0]])) (hinteger : P .integer)
    (hliteral : P (.literal [.str "auto", .int 0]))
    (hlevel : P (.enumeration "Level" [("LOW", .int 2), ("HIGH", .int 3)])) :
    jobSchema.Everywhere P := by
  rw [jobSchema, Schema.everywhere_recordWith]
  simp only [List.forall_mem_cons, Schema.everywhere_union, List.not_mem_nil, false_implies,
    implies_true, and_true]
  exact ⟨hjob, ⟨hworkers, Schema.everywhere_of_leaf rfl hinteger,
    Schema.everywhere_of_leaf rfl hliteral⟩, Schema.everywhere_of_leaf rfl hlevel⟩

/-- True is not among the numbers of a job, and is refused. -/
theorem true_workers_refused :
    jobSchema.WithoutBooleans ∧ jobDocument.Proper ∧ (Value.bool true).Within jobDocument ∧
      Site.Refuses ⟨"$", jobSchema, jobDocument⟩ := by
  have hschema : jobSchema.WithoutBooleans := by
    apply jobSchema_everywhere
    · trivial
    · trivial
    · trivial
    · simp only [Schema.OwnWithoutBooleans, List.forall_mem_cons, List.not_mem_nil, false_implies,
        implies_true, and_true]
      exact ⟨.text "auto", .integer 0⟩
    · simp only [Schema.OwnWithoutBooleans, List.forall_mem_cons, List.not_mem_nil, false_implies,
        implies_true, and_true]
      exact ⟨.integer 2, .integer 3⟩
  have hnone : jobSchema.Everywhere fun t => ¬ t.ListsNumberOf true := by
    apply jobSchema_everywhere <;> simp [jobSchema, Schema.ListsNumberOf]
  have hfaultless : jobSchema.Faultless := by
    apply jobSchema_everywhere <;> simp [jobSchema, Schema.OwnFaultless]
  have hproper : jobDocument.Proper := by
    simp [jobDocument, Value.same]
  have htrue : (Value.bool true).Within jobDocument := .single (by simp [jobDocument, Value.children])
  refine ⟨hschema, hproper, htrue, ?_⟩
  apply (((booleans_refused_iff hschema true).2 "$" jobDocument hproper).2 htrue hnone).mpr
  intro a ha fault
  exact ha.faultless hfaultless

/-- A literal of one and an enumeration with a member for one take true for it. -/
theorem true_loaded_as_one :
    (Schema.literal [.int 1]).WithoutBooleans ∧ (Value.bool true).Proper ∧
      (Value.bool true).HasBoolean ∧
      (Schema.literal [.int 1]).load "$" (.bool true) = .ok (.raw (.bool true)) ∧
      (Schema.enumeration "Level" [("LOW", .int 1)]).load "$" (.bool true) =
        .ok (.member "Level" "LOW") ∧
      ¬ Site.Refuses ⟨"$", .literal [.int 1], .bool true⟩ := by
  have hload : (Schema.literal [.int 1]).load "$" (.bool true) = .ok (.raw (.bool true)) := by
    with_unfolding_all rfl
  have hlisted : ∀ v ∈ [Value.int 1], v.IsIntegerOrString := by
    simpa using Value.IsIntegerOrString.integer 1
  refine ⟨Schema.everywhere_of_leaf rfl hlisted, Value.proper_bool true, ⟨true, .refl⟩,
    hload, by with_unfolding_all rfl, ?_⟩
  rintro ⟨m, hm⟩
  cases hload.symm.trans hm

end Stencil

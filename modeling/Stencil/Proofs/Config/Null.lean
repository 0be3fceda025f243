import Stencil.Proofs.Config.Part

/-!
# Null under an optional schema

What null is loaded as can be read off the schema alone: some schemas refuse it, some give null, a
record gives its fallbacks, and an enumeration may have a member for it. The options of a union are
asked in their order, so an optional schema gives null unless the schema that is made optional makes
something else of it first.

## Main definitions

* `Schema.ofNull` is what a schema makes of null.
* `Schema.LeavesNull` says that a schema refuses null or gives null.

## Main results

* `Schema.describes_load_null`: what a schema makes of null is what loading null ends in.
* `Schema.ofNull_optional`: an optional schema gives null where the schema refuses it.
* `null_kept_iff`: null under an optional schema is loaded as null, at every depth, exactly when the
  schema leaves null.
-/

namespace Stencil

/-! ## What a schema makes of null -/

/-- What becomes of null when it is loaded. -/
inductive OfNull
  | refused
  | kept
  /-- It is loaded as something else: a record, or a member. -/
  | replaced
  /-- It is looked for in an enumeration that has no members. -/
  | failed
  deriving DecidableEq

namespace OfNull

/-- The first outcome that is not a refusal. -/
def orElse : OfNull → OfNull → OfNull
  | refused, b => b
  | a, _ => a

@[simp] theorem orElse_refused (a : OfNull) : a.orElse refused = a := by
  cases a <;> rfl

theorem orElse_of_ne {a : OfNull} (ha : a ≠ refused) (b : OfNull) : a.orElse b = a := by
  cases a with
  | refused => exact absurd rfl ha
  | kept | replaced | failed => rfl

/-- Loading ends as an outcome says. -/
def Describes : OfNull → Except LoadFault Loaded → Prop
  | refused, r => ∃ m, r = .error (.mismatch m)
  | kept, r => r = .ok (.raw .null)
  | replaced, r => (∃ name fields, r = .ok (.record name fields)) ∨ ∃ e m, r = .ok (.member e m)
  | failed, r => r = .error .emptyEnumeration

theorem Describes.ne_mismatch {o : OfNull} {r : Except LoadFault Loaded} (h : o.Describes r)
    (ho : o ≠ .refused) (m : Mismatch) : r ≠ .error (.mismatch m) := by
  rintro rfl
  cases o with
  | refused => exact ho rfl
  | kept | failed => cases h
  | replaced => rcases h with ⟨name, fields, h⟩ | ⟨e, m, h⟩ <;> cases h

theorem Describes.cases_ok {o : OfNull} {x : Loaded} (h : o.Describes (.ok x)) :
    (o = .kept ∧ x = .raw .null) ∨
      (o = .replaced ∧ ((∃ name fields, x = .record name fields) ∨ ∃ e m, x = .member e m)) := by
  cases o with
  | refused =>
    obtain ⟨m, h⟩ := h
    cases h
  | failed => cases h
  | kept =>
    cases h
    exact .inl ⟨rfl, rfl⟩
  | replaced =>
    rcases h with ⟨name, fields, h⟩ | ⟨e, m, h⟩ <;> cases h
    · exact .inr ⟨rfl, .inl ⟨name, fields, rfl⟩⟩
    · exact .inr ⟨rfl, .inr ⟨e, m, rfl⟩⟩

end OfNull

namespace Schema

mutual

/-- What a schema makes of null. -/
def ofNull : Schema → OfNull
  | any => .kept
  | null => .kept
  | annotated s => s.ofNull
  | literal values => if values.any Value.null.same then .kept else .refused
  | enumeration _ members =>
    if (memberName members .null).isSome then .replaced
    else if members.isEmpty then .failed
    else .refused
  | union options => firstOfNull options
  | recordWith _ fields => if fields.all (·.2.2.isSome) then .replaced else .refused
  | text | integer | real | boolean | unsupported _ | list _ | tuple _ | dict _ _ => .refused

/-- What the first of several schemas that does not refuse null makes of it. -/
def firstOfNull : List Schema → OfNull
  | [] => .refused
  | s :: options => s.ofNull.orElse (firstOfNull options)

end

/-- A schema refuses null, or gives null. -/
def LeavesNull (s : Schema) : Prop :=
  s.ofNull = .refused ∨ s.ofNull = .kept

instance : DecidablePred LeavesNull :=
  fun _ => inferInstanceAs (Decidable (_ ∨ _))

/-! ## Loading null -/

section

variable {path : String} {s t : Schema}

theorem loadFields_nil (path : String) (fields : List (String × Schema × Option Loaded)) :
    if fields.all (·.2.2.isSome) then ∃ xs, loadFields path [] fields = .ok xs
    else ∃ m, loadFields path [] fields = .error (.mismatch m) := by
  induction fields with
  | nil => exact ⟨[], by rw [loadFields]⟩
  | cons f fields ih =>
    obtain ⟨name, s, fallback⟩ := f
    cases fallback with
    | none => exact ⟨_, by rw [loadFields]; rfl⟩
    | some y =>
      rw [List.all_cons, Option.isSome_some, Bool.true_and]
      split at ih
      · next hall =>
        obtain ⟨xs, hxs⟩ := ih
        rw [if_pos hall]
        exact ⟨(name, y) :: xs, by rw [loadFields, hxs]; rfl⟩
      · next hall =>
        obtain ⟨m, hm⟩ := ih
        rw [if_neg hall]
        exact ⟨m, by rw [loadFields, hm]; rfl⟩

theorem describes_loadFirst_null {options : List Schema} {failed : List Mismatch}
    (h : ∀ s ∈ options, s.ofNull.Describes (s.load path .null)) :
    (firstOfNull options).Describes (loadFirst path .null failed options) := by
  induction options generalizing failed with
  | nil =>
    rw [loadFirst, firstOfNull]
    exact ⟨_, rfl⟩
  | cons s options ih =>
    have hs := h s (.head _)
    rw [firstOfNull]
    by_cases hnull : s.ofNull = .refused
    · -- the options behind decide, whatever has been noted down so far
      rw [hnull] at hs ⊢
      obtain ⟨failed', hfailed⟩ := loadFirst_cons_of_refuses failed options hs
      rw [hfailed]
      exact ih fun t ht => h t (.tail _ ht)
    · rw [OfNull.orElse_of_ne hnull, loadFirst_cons_of_settles]
      · exact hs
      · rintro ⟨m, hm⟩
        exact hs.ne_mismatch hnull m hm

/-- **What a schema makes of null is what loading null ends in.** -/
theorem describes_load_null (path : String) (s : Schema) :
    s.ofNull.Describes (s.load path .null) := by
  induction s using Schema.induction with
  | step s ih =>
    cases s with
    | any => rw [load, ofNull]; rfl
    | null => rw [load, ofNull]; rfl
    | text | integer | real | boolean | unsupported | list | tuple =>
      rw [load, ofNull]
      exact ⟨_, rfl⟩
    | dict =>
      rw [load, ofNull]
      · exact ⟨_, rfl⟩
      · rintro entries ⟨⟩
    | annotated s =>
      rw [load, ofNull]
      exact ih s (.head _)
    | literal values =>
      rw [load, ofNull]
      split
      · rfl
      · exact ⟨_, rfl⟩
    | enumeration name members =>
      have hmember : memberOf? members .null = memberName members .null := rfl
      rw [load, ofNull, loadMember, hmember]
      cases memberName members .null with
      | some m => exact .inr ⟨name, m, rfl⟩
      | none =>
        cases members with
        | nil => rfl
        | cons => exact ⟨_, rfl⟩
    | union options =>
      rw [load, ofNull]
      exact describes_loadFirst_null ih
    | recordWith name fields =>
      rw [load_record_null, ofNull]
      have hfields := loadFields_nil path fields
      split at hfields
      · next hall =>
        obtain ⟨xs, hxs⟩ := hfields
        rw [if_pos hall, hxs]
        exact .inl ⟨name, xs, rfl⟩
      · next hall =>
        obtain ⟨m, hm⟩ := hfields
        rw [if_neg hall, hm]
        exact ⟨m, rfl⟩

-- a record with a fallback for each field
example : ¬ (recordWith "Limits" [("depth", integer, some (.raw (.int 7)))]).LeavesNull := by decide

-- a list of such records
example : (list (recordWith "Limits" [("depth", integer, some (.raw (.int 7)))])).LeavesNull := by
  decide

end

/-! ## Optional schemas

A union is built from the options of its schemas, and keeps the first of several that are the same.
What the others make of null has been said by then. -/

section

variable {s t : Schema}

theorem any_null_same_iff {values : List Value} :
    values.any Value.null.same = true ↔ .null ∈ values := by
  rw [List.any_eq_true]
  constructor
  · rintro ⟨v, hv, hsame⟩
    cases v with
    | null => exact hv
    | bool | str | number | list | dict | host => cases hsame
  · exact fun h => ⟨.null, h, rfl⟩

theorem eq_null_iff_of_same {v w : Value} (h : v.same w = true) : v = .null ↔ w = .null := by
  constructor
  · rintro rfl
    cases w with
    | null => rfl
    | bool | str | number | list | dict | host => cases h
  · rintro rfl
    cases v with
    | null => rfl
    | bool | str | number | list | dict | host => cases h

theorem null_mem_iff_of_same {vs ws : List Value} (h : same (literal vs) (literal ws) = true) :
    .null ∈ vs ↔ .null ∈ ws := by
  rw [same, Bool.and_eq_true, beq_iff_eq, List.all_eq_true] at h
  have hsame : List.Forall₂ (fun v w : Value => v.same w = true) vs ws := by
    refine List.forall₂_iff_zip.mpr ⟨h.1, fun hmem => ?_⟩
    exact (Bool.and_eq_true_iff.mp (h.2 _ hmem)).2
  clear h
  induction hsame with
  | nil => exact Iff.rfl
  | cons h _ ih =>
    rw [List.mem_cons, List.mem_cons]
    exact or_congr (eq_comm.trans ((eq_null_iff_of_same h).trans eq_comm)) ih

theorem firstOfNull_eq_of_same {os ps : List Schema} (h : sameAll os ps = true)
    (hof : ∀ s ∈ os, ∀ t, same s t = true → s.ofNull = t.ofNull) :
    firstOfNull os = firstOfNull ps := by
  induction os generalizing ps with
  | nil =>
    cases ps with
    | nil => rfl
    | cons => cases h
  | cons s os ih =>
    cases ps with
    | nil => cases h
    | cons t ps =>
      rw [sameAll, Bool.and_eq_true] at h
      rw [firstOfNull, firstOfNull, hof s (.head _) t h.1, ih h.2 fun u hu => hof u (.tail _ hu)]

/-- Schemas that are the same make the same of null. -/
theorem ofNull_eq_of_same (h : same s t = true) : s.ofNull = t.ofNull := by
  induction s using Schema.induction generalizing t with
  | step s ih =>
    cases s with
    | enumeration | recordWith => cases t <;> cases h
    | annotated s =>
      cases t with
      | annotated t =>
        rw [ofNull, ofNull]
        exact ih s (.head _) h
      | _ => cases h
    | literal vs =>
      cases t with
      | literal ws =>
        rw [ofNull, ofNull]
        refine if_congr ?_ rfl rfl
        rw [any_null_same_iff, any_null_same_iff, null_mem_iff_of_same h]
      | _ => cases h
    | union os =>
      cases t with
      | union ps =>
        rw [ofNull, ofNull]
        exact firstOfNull_eq_of_same h fun s hs t => ih s hs
      | _ => cases h
    -- what all of these make of null does not depend on what they are made of
    | _ => cases t <;> first | rfl | cases h

theorem firstOfNull_append (l₁ l₂ : List Schema) :
    firstOfNull (l₁ ++ l₂) = (firstOfNull l₁).orElse (firstOfNull l₂) := by
  induction l₁ with
  | nil => rfl
  | cons s l₁ ih =>
    rw [List.cons_append, firstOfNull, firstOfNull, ih]
    cases s.ofNull <;> rfl

theorem firstOfNull_options (s : Schema) : firstOfNull s.options = s.ofNull := by
  cases s with
  | union => rw [options, ofNull]
  | _ => exact OfNull.orElse_refused _

/-- What refuses null may be left out. -/
theorem firstOfNull_filter {p : Schema → Bool} {l : List Schema}
    (h : ∀ t ∈ l, p t = false → t.ofNull = .refused) :
    firstOfNull (l.filter p) = firstOfNull l := by
  induction l with
  | nil => rfl
  | cons s l ih =>
    have ih := ih fun t ht => h t (.tail _ ht)
    cases hp : p s with
    | true => rw [List.filter_cons_of_pos hp, firstOfNull, firstOfNull, ih]
    | false =>
      rw [List.filter_cons_of_neg (by simp [hp]), ih, firstOfNull, h s (.head _) hp]
      rfl

theorem firstOfNull_distinct (l : List Schema) : firstOfNull (distinct l) = firstOfNull l := by
  induction l with
  | nil => rfl
  | cons s l ih =>
    rw [distinct, firstOfNull, firstOfNull, ← ih]
    by_cases hs : s.ofNull = .refused
    · -- what is the same as a schema that refuses null refuses it as well
      rw [firstOfNull_filter]
      rintro t - ht
      rw [← ofNull_eq_of_same (by simpa using ht), hs]
    · rw [OfNull.orElse_of_ne hs, OfNull.orElse_of_ne hs]

theorem ofNull_unionOf (schemas : List Schema) :
    (unionOf schemas).ofNull = firstOfNull (schemas.flatMap options) := by
  rw [← firstOfNull_distinct, unionOf]
  split
  · next s h =>
    rw [h, firstOfNull, firstOfNull, OfNull.orElse_refused]
  · rw [ofNull]

/-- **An optional schema gives null where the schema refuses it**, and else what the schema makes of
it. -/
theorem ofNull_optional (s : Schema) : (optional s).ofNull = s.ofNull.orElse .kept := by
  rw [optional, ofNull_unionOf, List.flatMap_cons, List.flatMap_cons, List.flatMap_nil,
    List.append_nil, firstOfNull_append, firstOfNull_options, firstOfNull_options, ofNull]

theorem leavesNull_iff : s.LeavesNull ↔ (optional s).ofNull = .kept := by
  rw [ofNull_optional, LeavesNull]
  cases s.ofNull <;> simp [OfNull.orElse]

variable {path : String} {x : Loaded}

theorem LeavesNull.load_null (path : String) (h : s.LeavesNull) :
    (optional s).load path .null = .ok (.raw .null) := by
  have hdescribes := describes_load_null path (optional s)
  rwa [leavesNull_iff.mp h] at hdescribes

/-- What null is loaded as under an optional schema: null, or a value of the schema. -/
theorem load_optional_null_cases (h : (optional s).load path .null = .ok x) :
    (s.LeavesNull ∧ x = .raw .null) ∨
      (¬ s.LeavesNull ∧ ((∃ name fields, x = .record name fields) ∨ ∃ e m, x = .member e m)) := by
  have hdescribes := describes_load_null path (optional s)
  rw [h] at hdescribes
  rw [leavesNull_iff]
  rcases hdescribes.cases_ok with ⟨hkept, hx⟩ | ⟨hreplaced, hx⟩
  · exact .inl ⟨hkept, hx⟩
  · exact .inr ⟨by simp [hreplaced], hx⟩

theorem load_optional_null_iff :
    (optional s).load path .null = .ok (.raw .null) ↔ s.LeavesNull := by
  refine ⟨fun h => ?_, fun h => h.load_null path⟩
  rcases load_optional_null_cases h with ⟨hleaves, -⟩ | ⟨-, ⟨name, fields, hx⟩ | ⟨e, m, hx⟩⟩
  · exact hleaves
  · cases hx
  · cases hx

end

end Schema

/-- **Null under an optional schema is loaded as null exactly when the schema that is made optional
refuses null or gives null itself.** So it is wherever an optional schema meets null in what is
loaded, at any depth; otherwise the value there is a record that is made up of fallbacks, or a
member. -/
theorem null_kept_iff (s : Schema) :
    (∀ path, (Schema.optional s).load path .null = .ok (.raw .null) ↔ s.LeavesNull) ∧
      ∀ whole part : Loading, whole.Succeeds → whole.Contains part →
        part.site.schema = .optional s → part.site.raw = .null →
          (s.LeavesNull ∧ part.value = .raw .null) ∨
            (¬ s.LeavesNull ∧ ((∃ name fields, part.value = .record name fields) ∨
              ∃ e m, part.value = .member e m)) := by
  refine ⟨fun path => Schema.load_optional_null_iff, fun whole part hwhole hpart hschema hraw => ?_⟩
  have hload : part.site.load = .ok part.value := hpart.succeeds hwhole
  rw [Site.load, hschema, hraw] at hload
  exact Schema.load_optional_null_cases hload

/-- The limits of a run: a depth, which has a fallback. -/
def limitsSchema : Schema :=
  .record "Limits" [("depth", .integer, some (.int 7))]

/-- A run that may have a seed and limits of its own. -/
def runSchema : Schema :=
  .record "Run" [("seed", .optional .integer, none), ("limits", .optional limitsSchema, none)]

/-- A run without a seed and without limits. -/
def runDocument : Value :=
  .dict [(.str "seed", .null), (.str "limits", .null)]

/-- What it is loaded as: limits are made up. -/
def loadedRun : Loaded :=
  .record "Run"
    [("seed", .raw .null), ("limits", .record "Limits" [("depth", .raw (.int 7))])]

/-- The seed of the run stays null. -/
theorem null_seed_kept :
    Schema.integer.LeavesNull ∧ runSchema.load "$" runDocument = .ok loadedRun ∧
      ∃ seed : Loading, Loading.Contains ⟨⟨"$", runSchema, runDocument⟩, loadedRun⟩ seed ∧
        seed.site = ⟨fieldPath "$" "seed", .optional .integer, .null⟩ ∧
        seed.value = .raw .null := by
  have hload : runSchema.load "$" runDocument = .ok loadedRun := by with_unfolding_all rfl
  let seed : Loading := ⟨⟨fieldPath "$" "seed", .optional .integer, .null⟩, .raw .null⟩
  have hseed : Loading.Contains ⟨⟨"$", runSchema, runDocument⟩, loadedRun⟩ seed :=
    .single (.field (i := 0) rfl rfl rfl rfl)
  refine ⟨.inl rfl, hload, seed, hseed, rfl, ?_⟩
  rcases (null_kept_iff .integer).2 ⟨⟨"$", runSchema, runDocument⟩, loadedRun⟩ seed hload hseed
    rfl rfl with ⟨-, hkept⟩ | ⟨hnot, -⟩
  · exact hkept
  · exact absurd (.inl rfl) hnot

/-- Limits that are null are made up from fallbacks. -/
theorem null_limits_made_up :
    (Schema.optional limitsSchema).load "$" .null =
      .ok (.record "Limits" [("depth", .raw (.int 7))]) := by
  with_unfolding_all rfl

end Stencil

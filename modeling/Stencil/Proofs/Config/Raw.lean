import Mathlib.Algebra.Group.Nat.Defs
import Mathlib.Logic.Relation
import Stencil.Value

/-!
# Inside raw values

A raw value is made of the items of a list, or of the keys and values of a mapping. No mapping has
two keys that are equal: what is said of documents is said of values like that, in which a name is
bound to one value at most.

## Main definitions

* `Value.IsScalar` says that a value is neither a list nor a mapping.
* `Value.Within` says that a value stands in another one, at any depth.
* `Value.Proper` says that no mapping in a value has a key twice.
* `Value.HasBoolean` says that a boolean stands in a value.

## Main results

* `Value.same_bool_int_iff`: the integer that a boolean is equal to.
* `Value.same_comm`: scalars are equal in either order.
* `Value.lookup_eq_some_iff`: in a mapping without equal keys, a name is bound to the value of the
  entry that has the name for its key.
-/

namespace Stencil

/-! ## Equal integers -/

/-- Zeros that are moved into the exponent leave the value as it is. -/
theorem stripZerosWithin_value (fuel c : Nat) (e : Int) :
    ∃ j : Nat, (stripZerosWithin fuel c e).2 = e + j ∧
      c = (stripZerosWithin fuel c e).1 * 10 ^ j := by
  induction fuel generalizing c e with
  | zero => exact ⟨0, by simp [stripZerosWithin]⟩
  | succ fuel ih =>
    rw [stripZerosWithin]
    split
    · next hzero =>
      obtain ⟨j, hexponent, hvalue⟩ := ih (c / 10) (e + 1)
      refine ⟨j + 1, by omega, ?_⟩
      rw [Nat.pow_succ, ← Nat.mul_assoc, ← hvalue]
      omega
    · exact ⟨0, by simp⟩

/-- A natural number without its zeros, times the power of ten that they make. -/
theorem stripZeros_value (c : Nat) : c = (stripZeros c 0).1 * 10 ^ (stripZeros c 0).2.toNat := by
  rw [stripZeros]
  split
  · next hzero => simpa using hzero
  · obtain ⟨j, hexponent, hvalue⟩ := stripZerosWithin_value (digitCount c) c 0
    rw [hexponent]
    simpa using hvalue

/-- Integers are equal as numbers when they are equal. -/
theorem Number.same_int_iff {m n : Int} : (Number.int m).same (.int n) = true ↔ m = n := by
  constructor
  · intro h
    simp only [Number.same, exact, Exact.of, Bool.and_eq_true, beq_iff_eq] at h
    obtain ⟨-, heq⟩ := h
    injection heq with hsign hcoefficient hexponent
    have hm := stripZeros_value m.natAbs
    have hn := stripZeros_value n.natAbs
    rw [hcoefficient, hexponent, ← hn] at hm
    by_cases hzero : n.natAbs = 0
    · omega
    · -- a digit is left, so the signs are compared
      have hdigit : (stripZeros n.natAbs 0).1 ≠ 0 := by
        intro hnone
        rw [hnone, Nat.zero_mul] at hn
        exact hzero hn
      rw [hcoefficient] at hsign
      simp [hdigit] at hsign
      omega
  · rintro rfl
    simp [Number.same, exact, Exact.of]

namespace Value

section

variable {b : Bool} {n : Int} {v w : Value} {s : String}

/-- A boolean is equal to zero or to one. -/
theorem same_bool_int_iff : (bool b).same (int n) = true ↔ n = b.toInt := by
  cases b
  · exact Number.same_int_iff.trans eq_comm
  · exact Number.same_int_iff.trans eq_comm

/-- No other value is equal to a string. -/
theorem same_str_iff : v.same (str s) = true ↔ v = str s := by
  cases v with
  | str t => simp [same]
  | null | list | dict | host => simp [same]
  | bool | number => simp [same, numeric?]

/-- A value that is neither a list nor a mapping. -/
def IsScalar : Value → Prop
  | list _ => False
  | dict _ => False
  | _ => True

/-- Scalars are equal in either order. -/
theorem same_comm (hv : v.IsScalar) (hw : w.IsScalar) : v.same w = w.same v := by
  have hnumber (m n : Number) : m.same n = n.same m := by
    rw [Bool.eq_iff_iff]
    simp only [Number.same, Bool.and_eq_true, bne_iff_ne, beq_iff_eq]
    constructor <;>
    · rintro ⟨hne, heq⟩
      exact ⟨heq ▸ hne, heq.symm⟩
  cases v with
  | list | dict => cases hv
  | null | str | host => cases w <;> simp [same, numeric?, Bool.beq_comm]
  | bool | number =>
    cases w with
    | list | dict => cases hw
    | null | str | host => simp [same, numeric?]
    | bool | number => simp only [same, numeric?, hnumber]

end

/-! ## Values inside values -/

/-- The values that a value is made of. -/
def children : Value → List Value
  | list items => items
  | dict entries => entries.map (·.1) ++ entries.map (·.2)
  | _ => []

/-- A value stands in another one, at any depth. -/
def Within : Value → Value → Prop :=
  Relation.ReflTransGen fun w v => w ∈ v.children

/-- If it is a mapping, no two of its keys are equal. -/
def OwnKeysApart : Value → Prop
  | dict entries => entries.Pairwise fun e f => f.1.same e.1 = false
  | _ => True

/-- No mapping in a value has a key twice. -/
def Proper (v : Value) : Prop :=
  ∀ w : Value, w.Within v → w.OwnKeysApart

/-- A boolean stands in a value. -/
def HasBoolean (v : Value) : Prop :=
  ∃ b, (bool b).Within v

section

variable {v w : Value} {items : List Value} {entries : List (Value × Value)}

theorem within_iff : w.Within v ↔ w = v ∨ ∃ u ∈ v.children, w.Within u := by
  constructor
  · intro h
    rcases Relation.ReflTransGen.cases_tail h with rfl | ⟨u, hu, hchild⟩
    · exact .inl rfl
    · exact .inr ⟨u, hchild, hu⟩
  · rintro (rfl | ⟨u, hchild, hu⟩)
    · exact .refl
    · exact hu.tail hchild

theorem Proper.of_mem_children (h : v.Proper) (hw : w ∈ v.children) : w.Proper :=
  fun u hu => h u (hu.tail hw)

theorem proper_iff : v.Proper ↔ v.OwnKeysApart ∧ ∀ w ∈ v.children, w.Proper := by
  constructor
  · exact fun h => ⟨h v .refl, fun w hw => h.of_mem_children hw⟩
  · rintro ⟨hown, hinside⟩ u hu
    rcases within_iff.mp hu with rfl | ⟨w, hw, hu⟩
    · exact hown
    · exact hinside w hw u hu

theorem proper_of_leaf (hleaf : v.children = []) (hown : v.OwnKeysApart) : v.Proper :=
  proper_iff.mpr ⟨hown, by simp [hleaf]⟩

@[simp] theorem proper_null : null.Proper := proper_of_leaf rfl trivial

@[simp] theorem proper_bool (b : Bool) : (bool b).Proper := proper_of_leaf rfl trivial

@[simp] theorem proper_str (s : String) : (str s).Proper := proper_of_leaf rfl trivial

@[simp] theorem proper_number (n : Number) : (number n).Proper := proper_of_leaf rfl trivial

@[simp] theorem proper_host (object : HostObject) : (host object).Proper :=
  proper_of_leaf rfl trivial

theorem IsScalar.proper (h : v.IsScalar) : v.Proper := by
  cases v with
  | list | dict => cases h
  | null | bool | str | number | host => simp

@[simp] theorem proper_list : (list items).Proper ↔ ∀ v ∈ items, v.Proper := by
  rw [proper_iff]
  simp [OwnKeysApart, children]

@[simp] theorem proper_dict :
    (dict entries).Proper ↔ (entries.Pairwise fun e f => f.1.same e.1 = false) ∧
      ∀ e ∈ entries, e.1.Proper ∧ e.2.Proper := by
  rw [proper_iff]
  simp only [OwnKeysApart, children, List.mem_append, List.mem_map]
  grind

theorem hasBoolean_iff :
    v.HasBoolean ↔ (∃ b, v = bool b) ∨ ∃ w ∈ v.children, w.HasBoolean := by
  simp only [HasBoolean]
  constructor
  · rintro ⟨b, hb⟩
    rcases within_iff.mp hb with rfl | ⟨w, hw, hb⟩
    · exact .inl ⟨b, rfl⟩
    · exact .inr ⟨w, hw, b, hb⟩
  · rintro (⟨b, rfl⟩ | ⟨w, hw, b, hb⟩)
    · exact ⟨b, .refl⟩
    · exact ⟨b, hb.tail hw⟩

end

/-! ## Names in mappings -/

section

variable {entries : List (Value × Value)} {name : String} {v : Value}

theorem lookup_eq_none_iff : lookup name entries = none ↔ ∀ e ∈ entries, e.1 ≠ str name := by
  simp only [lookup, Option.map_eq_none_iff, List.find?_eq_none, same_str_iff, ne_eq]

/-- **A name is bound to the value of the entry that has the name for its key**, where no two keys
are equal. -/
theorem lookup_eq_some_iff (hapart : entries.Pairwise fun e f => f.1.same e.1 = false) :
    lookup name entries = some v ↔ (str name, v) ∈ entries := by
  induction hapart with
  | nil => simp [lookup]
  | @cons e entries he _ ih =>
    by_cases hname : e.1 = str name
    · have hlookup : lookup name (e :: entries) = some e.2 := by
        simp [lookup, same_str_iff.mpr hname]
      -- no entry behind this one has the name as well
      have hbehind : (str name, v) ∉ entries := by
        intro hv
        have hsame := he _ hv
        rw [hname, same_str_iff.mpr rfl] at hsame
        cases hsame
      rw [hlookup, List.mem_cons]
      simp only [hbehind, or_false, Prod.ext_iff, hname, true_and, Option.some.injEq]
      exact eq_comm
    · have hlookup : lookup name (e :: entries) = lookup name entries := by
        simp [lookup, mt same_str_iff.mp hname]
      rw [hlookup, ih, List.mem_cons]
      simp [Prod.ext_iff, Ne.symm hname]

end

end Value

end Stencil

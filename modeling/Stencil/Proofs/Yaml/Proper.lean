import Stencil.Proofs.Config.Raw
import Stencil.Proofs.Outcome
import Stencil.Yaml.Document

/-!
# Documents have no key twice

A mapping of a document is built up entry by entry, and an entry whose key is there already is an
issue. So no mapping that is read has two equal keys. Everything that is still open while tokens are
read holds proper values, and each token keeps it so.

## Main definitions

* `Yaml.ProperEntries` says that the entries of an open mapping make up a proper one.
* `Yaml.Frame.Proper` says that what an open frame holds is proper, `Yaml.ProperStack` that all frames
  of a stack are like that.
* `Yaml.Token.HasScalar` says that the value of a token, if it has one, is a scalar.

## Main results

* `Yaml.ProperEntries.addEntry`: an entry that is added leaves a mapping proper.
* `Yaml.ProperStack.step`: a token keeps what is open proper.
* `Yaml.ProperStack.readTokens`: so do all tokens of a text.
* `Yaml.read_proper`: no mapping in a document has a key twice.
-/

namespace Stencil

namespace Yaml

/-! ## Open mappings -/

/-- The entries of an open mapping, last one first, make up a proper one, and their keys are
scalars. -/
structure ProperEntries (entries : List (Value × Value)) : Prop where
  proper : (Value.dict entries.reverse).Proper
  scalar : ∀ e ∈ entries, e.1.IsScalar

section

variable {entries entries' : List (Value × Value)} {key v : Value}

theorem properEntries_nil : ProperEntries [] :=
  ⟨by simp, by simp⟩

/-- An entry is added to a mapping that has no equal key. -/
theorem ProperEntries.addEntry (h : ProperEntries entries) (hkey : key.IsScalar) (hv : v.Proper)
    (hadd : Frame.addEntry entries key v = .ok entries') : ProperEntries entries' := by
  rw [Frame.addEntry] at hadd
  split at hadd
  · cases hadd
  · next hnone =>
    cases hadd
    simp only [List.any_eq_true, not_exists, not_and, Bool.not_eq_true] at hnone
    obtain ⟨hapart, hinside⟩ := Value.proper_dict.mp h.proper
    constructor
    · rw [List.reverse_cons, Value.proper_dict, List.pairwise_append]
      refine ⟨⟨hapart, List.pairwise_singleton _ _, ?_⟩, ?_⟩
      · intro e he f hf
        obtain rfl := List.mem_singleton.mp hf
        -- the new key is compared from the other side
        have he := List.mem_reverse.mp he
        rw [Value.same_comm hkey (h.scalar e he)]
        exact hnone e he
      · intro e he
        rcases List.mem_append.mp he with he | he
        · exact hinside e he
        · obtain rfl := List.mem_singleton.mp he
          exact ⟨hkey.proper, hv⟩
    · exact List.forall_mem_cons.mpr ⟨hkey, h.scalar⟩

/-- A key with nothing behind it has the value null when its mapping ends. -/
theorem ProperEntries.value {column : Nat} {key : Option Value} (h : ProperEntries entries)
    (hkey : ∀ k ∈ key, k.IsScalar) (hvalue : (Frame.mapping column entries key).value = .ok v) :
    v.Proper := by
  cases key with
  | none =>
    cases hvalue
    exact h.proper
  | some key =>
    obtain ⟨entries', hadd, ⟨⟩⟩ := bind_eq_ok.mp hvalue
    exact (h.addEntry (hkey key rfl) Value.proper_null hadd).proper

end

/-! ## Open frames -/

namespace Frame

/-- What an open frame holds is proper, and its key is a scalar. -/
def Proper : Frame → Prop
  | document _ root => ∀ v ∈ root, v.Proper
  | sequence _ _ items _ => ∀ v ∈ items, v.Proper
  | mapping _ entries key => ProperEntries entries ∧ ∀ k ∈ key, k.IsScalar
  | flowList items key _ => (∀ v ∈ items, v.Proper) ∧ ∀ k ∈ key, k.IsScalar
  | flowMapping entries key _ => ProperEntries entries ∧ ∀ k ∈ key, k.IsScalar

variable {f g : Frame} {items : List Value} {key v : Value}

/-- An item of a list in flow style may be a mapping of one entry. -/
theorem proper_cons_entry (hitems : ∀ w ∈ items, w.Proper) (hkey : key.IsScalar) (hv : v.Proper) :
    ∀ w ∈ Value.dict [(key, v)] :: items, w.Proper := by
  refine List.forall_mem_cons.mpr ⟨?_, hitems⟩
  simp [hkey.proper, hv]

/-- What a proper frame ends in is proper. -/
theorem Proper.value (h : f.Proper) (hvalue : f.value = .ok v) : v.Proper := by
  cases f with
  | document stage root =>
    cases hvalue
    cases root with
    | none => simp
    | some w => exact h w rfl
  | sequence column flush items due =>
    cases hvalue
    have hitems : ∀ w ∈ items, w.Proper := h
    cases due with
    | false => simpa using hitems
    | true => simpa [or_imp, forall_and] using hitems
  | mapping column entries key => exact h.1.value h.2 hvalue
  | flowList items key due =>
    obtain ⟨hitems, hkey⟩ := h
    cases key with
    | none =>
      cases hvalue
      simpa using hitems
    | some key =>
      cases hvalue
      rw [Value.proper_list]
      intro w hw
      exact proper_cons_entry hitems (hkey key rfl) Value.proper_null w (List.mem_reverse.mp hw)
  | flowMapping entries key due =>
    -- its end is that of a mapping in block style
    have hblock : (mapping 0 entries key).value = .ok v := by
      cases key with
      | none => exact hvalue
      | some key => exact hvalue
    exact h.1.value h.2 hblock

/-- A proper value is put into a frame. -/
theorem Proper.fill (h : f.Proper) (hv : v.Proper) (hfill : f.fill v = .ok g) : g.Proper := by
  rw [Frame.fill.eq_def] at hfill
  split at hfill
  · -- the root of a document
    cases hfill
    simpa [Proper] using hv
  · -- an item of a list in block style
    cases hfill
    exact List.forall_mem_cons.mpr ⟨hv, h⟩
  · -- the value of a key in block style
    obtain ⟨entries', hadd, ⟨⟩⟩ := bind_eq_ok.mp hfill
    exact ⟨h.1.addEntry (h.2 _ rfl) hv hadd, nofun⟩
  · -- an item of a list in flow style
    cases hfill
    exact ⟨List.forall_mem_cons.mpr ⟨hv, h.1⟩, nofun⟩
  · -- a mapping of one entry in such a list
    cases hfill
    exact ⟨proper_cons_entry h.1 (h.2 _ rfl) hv, nofun⟩
  · -- the value of a key in flow style
    obtain ⟨entries', hadd, ⟨⟩⟩ := bind_eq_ok.mp hfill
    exact ⟨h.1.addEntry (h.2 _ rfl) hv hadd, nofun⟩
  · cases hfill

/-- A key with nothing behind it but a comma has the value null. -/
theorem Proper.comma (h : f.Proper) (hcomma : f.comma = .ok g) : g.Proper := by
  rw [Frame.comma.eq_def] at hcomma
  split at hcomma
  · cases hcomma
    exact ⟨h.1, nofun⟩
  · cases hcomma
    exact ⟨proper_cons_entry h.1 (h.2 _ rfl) Value.proper_null, nofun⟩
  · cases hcomma
    exact ⟨h.1, nofun⟩
  · obtain ⟨entries', hadd, ⟨⟩⟩ := bind_eq_ok.mp hcomma
    exact ⟨h.1.addEntry (h.2 _ rfl) Value.proper_null hadd, nofun⟩
  · cases hcomma

end Frame

/-! ## Stacks -/

section

variable {ends : Frame → Bool} {f : Frame} {v : Value} {below : List Frame}

/-- The innermost frame ends, or nothing does. -/
theorem endWhile_none :
    endWhile ends none (f :: below) =
      if ends f then f.value >>= fun v => endWhile ends (some v) below else .ok (f :: below) :=
  rfl

/-- A value that has ended goes into the innermost frame first. -/
theorem endWhile_some :
    endWhile ends (some v) (f :: below) =
      f.fill v >>= fun g => endWhile ends none (g :: below) :=
  rfl

end

/-- What the open frames hold is proper. -/
def ProperStack (stack : List Frame) : Prop :=
  ∀ f ∈ stack, f.Proper

namespace ProperStack

variable {f : Frame} {v : Value} {first : Bool} {column : Nat} {stack stack' below : List Frame}

theorem cons_iff : ProperStack (f :: below) ↔ f.Proper ∧ ProperStack below :=
  List.forall_mem_cons

/-- A proper value is put into the innermost frame. -/
theorem put (h : ProperStack stack) (hv : v.Proper) (hput : put v stack = .ok stack') :
    ProperStack stack' := by
  cases stack with
  | nil => cases hput
  | cons f below =>
    obtain ⟨hf, hbelow⟩ := cons_iff.mp h
    obtain ⟨g, hfill, ⟨⟩⟩ := bind_eq_ok.mp hput
    exact cons_iff.mpr ⟨hf.fill hv hfill, hbelow⟩

/-- Blocks that end are proper values, which go into the frames around them. -/
theorem endWhile {ends : Frame → Bool} {ended : Option Value} (h : ProperStack stack)
    (hended : ∀ v ∈ ended, v.Proper) (hend : endWhile ends ended stack = .ok stack') :
    ProperStack stack' := by
  induction stack generalizing ended with
  | nil =>
    cases hend
    exact h
  | cons f below ih =>
    obtain ⟨hf, hbelow⟩ := cons_iff.mp h
    have hgo {g : Frame} (hg : g.Proper) (hend : Yaml.endWhile ends none (g :: below) = .ok stack') :
        ProperStack stack' := by
      rw [endWhile_none] at hend
      split at hend
      · obtain ⟨w, hvalue, hend⟩ := bind_eq_ok.mp hend
        refine ih hbelow ?_ hend
        rintro _ ⟨⟩
        exact hg.value hvalue
      · cases hend
        exact cons_iff.mpr ⟨hg, hbelow⟩
    cases ended with
    | none => exact hgo hf hend
    | some v =>
      rw [endWhile_some] at hend
      obtain ⟨g, hfill, hend⟩ := bind_eq_ok.mp hend
      exact hgo (hf.fill (hended v rfl) hfill) hend

theorem unwind (h : ProperStack stack) (hunwind : unwind column stack = .ok stack') :
    ProperStack stack' :=
  h.endWhile (by simp) hunwind

theorem closeAll (h : ProperStack stack) (hclose : closeAll stack = .ok stack') :
    ProperStack stack' := by
  obtain ⟨opened, hunwind, hclose⟩ := bind_eq_ok.mp hclose
  have hopened := h.unwind hunwind
  split at hclose
  · cases hclose
    exact hopened
  · cases hclose

/-- The end of a list in block style leaves a proper stack. -/
theorem endFlush (h : ProperStack stack) (hend : endFlush first column stack = .ok stack') :
    ProperStack stack' := by
  rw [Yaml.endFlush.eq_def] at hend
  split at hend
  · split at hend
    · exact h.endWhile (by simp) hend
    · cases hend
      exact h
  · cases hend
    exact h

/-! ## Tokens -/

theorem placeDash (h : ProperStack stack) (hplace : placeDash first column stack = .ok stack') :
    ProperStack stack' := by
  have hempty (flush : Bool) : (Frame.sequence column flush [] true).Proper := by
    simp [Frame.Proper]
  rw [Yaml.placeDash.eq_def] at hplace
  split at hplace
  · next indent flush items due below =>
    obtain ⟨hitems, hbelow⟩ := cons_iff.mp h
    split at hplace
    · -- the next item of this list
      cases hplace
      refine cons_iff.mpr ⟨?_, hbelow⟩
      have hitems : ∀ w ∈ items, w.Proper := hitems
      cases due with
      | false => simpa [Frame.Proper] using hitems
      | true => simpa [Frame.Proper] using hitems
    · split at hplace
      · cases hplace
        exact cons_iff.mpr ⟨hempty false, h⟩
      · cases hplace
  · split at hplace
    · cases hplace
      exact cons_iff.mpr ⟨hempty false, h⟩
    · split at hplace
      · split at hplace
        · cases hplace
          exact cons_iff.mpr ⟨hempty true, h⟩
        · cases hplace
      · cases hplace
  · cases hplace

theorem placeKey (h : ProperStack stack) (hkey : v.IsScalar)
    (hplace : placeKey first column v stack = .ok stack') : ProperStack stack' := by
  have hpending : ∀ k ∈ some v, k.IsScalar := by
    rintro _ ⟨⟩
    exact hkey
  rw [Yaml.placeKey.eq_def] at hplace
  split at hplace
  · next f below =>
    obtain ⟨hf, hbelow⟩ := cons_iff.mp h
    split at hplace
    · -- a mapping begins
      cases hplace
      exact cons_iff.mpr ⟨⟨properEntries_nil, hpending⟩, h⟩
    · split at hplace
      · next indent entries pending _ =>
        split at hplace
        · cases pending with
          | none =>
            cases hplace
            exact cons_iff.mpr ⟨⟨hf.1, hpending⟩, hbelow⟩
          | some key =>
            -- the key before this one has nothing behind it
            obtain ⟨entries', hadd, ⟨⟩⟩ := bind_eq_ok.mp hplace
            have hentries := hf.1.addEntry (hf.2 key rfl) Value.proper_null hadd
            exact cons_iff.mpr ⟨⟨hentries, hpending⟩, hbelow⟩
        · cases hplace
      · cases hplace
        exact cons_iff.mpr ⟨⟨hf.1, hpending⟩, hbelow⟩
      · cases hplace
        exact cons_iff.mpr ⟨⟨hf.1, hpending⟩, hbelow⟩
      · cases hplace
  · cases hplace

theorem placeScalar (h : ProperStack stack) (hv : v.IsScalar)
    (hplace : placeScalar first column v stack = .ok stack') : ProperStack stack' := by
  rw [Yaml.placeScalar.eq_def] at hplace
  split at hplace
  · obtain ⟨hf, hbelow⟩ := cons_iff.mp h
    obtain ⟨entries', hadd, ⟨⟩⟩ := bind_eq_ok.mp hplace
    exact cons_iff.mpr ⟨⟨hf.1.addEntry hv Value.proper_null hadd, nofun⟩, hbelow⟩
  · split at hplace
    · cases hplace
    · exact h.put hv.proper hplace
  · cases hplace

theorem placeOpen (h : ProperStack stack) (hf : f.Proper)
    (hplace : placeOpen first column f stack = .ok stack') : ProperStack stack' := by
  rw [Yaml.placeOpen.eq_def] at hplace
  split at hplace
  · split at hplace
    · cases hplace
    · cases hplace
      exact cons_iff.mpr ⟨hf, h⟩
  · cases hplace

end ProperStack

/-- The value of a token, if it has one, is a scalar. -/
def Token.HasScalar : Token → Prop
  | .scalar v => v.IsScalar
  | .key v => v.IsScalar
  | _ => True

theorem isScalar_plainValue (s : List Char) : (plainValue s).IsScalar := by
  rw [plainValue]
  split
  · trivial
  · split
    · trivial
    · split
      · trivial
      · split <;> trivial

section

variable {context : Context} {column n k : Nat} {c : Char} {s rest : List Char} {t : Token} {v : Value}

theorem hasScalar_of_scalarToken (hv : v.IsScalar) (h : scalarToken context v n s = (t, k)) :
    t.HasScalar := by
  rw [scalarToken] at h
  split at h
  · cases h
    exact hv
  · split at h
    · cases h
      exact hv
    · cases h
      exact hv

theorem hasScalar_of_marker (h : marker? s = some t) : t.HasScalar := by
  rw [marker?.eq_def] at h
  split at h
  · split at h
    · cases h
      trivial
    · cases h
  · split at h
    · cases h
      trivial
    · cases h
  · cases h

/-- A token that is read has a scalar for its value. -/
theorem hasScalar_of_tokenAt (h : tokenAt context column c rest = .ok (t, n)) : t.HasScalar := by
  rw [tokenAt.eq_def] at h
  split at h
  · next hmarker =>
    cases h
    split at hmarker
    · exact hasScalar_of_marker hmarker
    · cases hmarker
  · split at h
    · cases h
      trivial
    · cases h
      trivial
    · cases h
      trivial
    · cases h
      trivial
    · cases h
      trivial
    · obtain ⟨⟨text, m⟩, -, h⟩ := bind_eq_ok.mp h
      exact hasScalar_of_scalarToken (v := .str _) trivial (Except.ok.inj h)
    · obtain ⟨⟨text, m⟩, -, h⟩ := bind_eq_ok.mp h
      exact hasScalar_of_scalarToken (v := .str _) trivial (Except.ok.inj h)
    · split at h
      · exact hasScalar_of_scalarToken (isScalar_plainValue _) (Except.ok.inj h)
      · split at h
        · cases h
          trivial
        · split at h <;> cases h

end

/-! ## Whole documents -/

namespace ProperStack

variable {t : Token} {first : Bool} {column n : Nat} {c : Char} {rest s : List Char} {k : Cursor}
  {stop : Place} {stack stack' : List Frame}

/-- **A token is put where it belongs.** -/
theorem place (h : ProperStack stack) (ht : t.HasScalar)
    (hplace : place first column t stack = .ok stack') : ProperStack stack' := by
  cases t with
  | dash => exact h.placeDash hplace
  | key v =>
    obtain ⟨ended, hend, hplace⟩ := bind_eq_ok.mp hplace
    exact (h.endFlush hend).placeKey ht hplace
  | scalar v => exact h.placeScalar ht hplace
  | openList => exact h.placeOpen (by simp [Frame.Proper]) hplace
  | openMapping => exact h.placeOpen (by simp [Frame.Proper, properEntries_nil]) hplace
  | closeList =>
    simp only [Yaml.place] at hplace
    split at hplace
    · obtain ⟨hf, hbelow⟩ := cons_iff.mp h
      obtain ⟨v, hvalue, hput⟩ := bind_eq_ok.mp hplace
      exact hbelow.put (hf.value hvalue) hput
    · cases hplace
  | closeMapping =>
    simp only [Yaml.place] at hplace
    split at hplace
    · obtain ⟨hf, hbelow⟩ := cons_iff.mp h
      obtain ⟨v, hvalue, hput⟩ := bind_eq_ok.mp hplace
      exact hbelow.put (hf.value hvalue) hput
    · cases hplace
  | comma =>
    cases stack with
    | nil => cases hplace
    | cons f below =>
      obtain ⟨hf, hbelow⟩ := cons_iff.mp h
      obtain ⟨g, hcomma, ⟨⟩⟩ := bind_eq_ok.mp hplace
      exact cons_iff.mpr ⟨hf.comma hcomma, hbelow⟩
  | documentStart =>
    simp only [Yaml.place] at hplace
    split at hplace
    · cases hplace
      simp [ProperStack, Frame.Proper]
    · cases hplace
  | documentEnd =>
    obtain ⟨closed, hclose, hplace⟩ := bind_eq_ok.mp hplace
    have hclosed := h.closeAll hclose
    split at hplace
    · cases hplace
      exact cons_iff.mpr ⟨(cons_iff.mp hclosed).1, nofun⟩
    · cases hplace

/-- **A step keeps what is open proper.** -/
theorem step (h : ProperStack stack) (hstep : step first column c rest stack = .ok (stack', n)) :
    ProperStack stack' := by
  -- the blocks that the token ends have ended before it is read
  obtain ⟨opened, hopened, hread⟩ : ∃ opened, ProperStack opened ∧
      (tokenAt (contextOf opened) column c rest >>= fun r =>
        Yaml.place first column r.1 opened >>= fun placed => .ok (placed, r.2)) =
          .ok (stack', n) := by
    rw [Yaml.step] at hstep
    split at hstep
    · obtain ⟨opened, hunwind, hread⟩ := bind_eq_ok.mp hstep
      exact ⟨opened, h.unwind hunwind, hread⟩
    · exact ⟨stack, h, hstep⟩
  obtain ⟨⟨t, m⟩, htoken, hread⟩ := bind_eq_ok.mp hread
  obtain ⟨placed, hplaced, ⟨⟩⟩ := bind_eq_ok.mp hread
  exact hopened.place (hasScalar_of_tokenAt htoken) hplaced

/-- **All tokens of a text do.** -/
theorem readTokens (h : ProperStack stack)
    (hread : readTokens stack first k s = .ok (stack', stop)) : ProperStack stack' := by
  fun_induction Yaml.readTokens stack first k s with
  | case1 =>
    cases hread
    exact h
  | case2 => cases hread
  | case3 _ _ _ _ _ _ _ _ _ _ _ hstep ih => exact ih (h.step hstep) hread

end ProperStack

/-- **No mapping in a document has a key twice.** -/
theorem read_proper {text : String} {v : Value} (h : read text = .ok v) : v.Proper := by
  rw [read] at h
  split at h
  · cases h
  · obtain ⟨⟨stack, stop⟩, hread, h⟩ := bind_eq_ok.mp h
    have hstack : ProperStack stack := by
      have hnew : ProperStack [.document .unmarked none] := by simp [ProperStack, Frame.Proper]
      exact hnew.readTokens hread
    dsimp only at h
    split at h
    · next hclose =>
      cases h
      have hroot := (ProperStack.cons_iff.mp (hstack.closeAll hclose)).1
      exact hroot.value rfl
    · cases h
    · cases h

end Yaml

end Stencil

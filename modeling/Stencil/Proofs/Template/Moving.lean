import Stencil.Proofs.Template.Partition
import Stencil.Proofs.Template.Walk

/-!
# Sources further on

A source that stands further on in a longer one is cut into the same pieces: only the positions of
their tokens and the places where they begin are others. What tokens derive does not depend on where
they stand, so the pieces form the same block, whose elements are the same but for their places.

## Main definitions

* `Token.moved` and `PieceKind.moved` stand some characters further on.
* `Item.at` is what a piece writes at another place.

## Main results

* `cut_moved` and `Sliced.moved`: a source further on is cut into the same pieces, moved.
* `Piece.Writes.moved`: a piece further on writes the same.
* `Forms.moved`: pieces further on form a block of elements that agree.
-/

namespace Stencil

/-- The token `d` characters further on. -/
def Token.moved (d : Nat) (t : Token) : Token := { t with position := d + t.position }

/-- The piece with its tokens `d` characters further on. -/
def PieceKind.moved (d : Nat) : PieceKind → PieceKind
  | text s => .text s
  | interpolation tokens => .interpolation (tokens.map (Token.moved d))
  | directive name tokens selfClosing => .directive name (tokens.map (Token.moved d)) selfClosing
  | endTag name => .endTag name

/-- The piece `q` is the piece `p`, further on. -/
def Piece.Moved (d : Nat) (q p : Piece) : Prop := q.kind = p.kind.moved d

/-! ## Cutting -/

variable {d : Nat}

/-- A scan that begins further on gives the same tokens there. -/
theorem Scanned.moved {stops : List String} {depth position stop : Nat} {s : List Char}
    {ts : List Token} (h : Scanned stops depth position s ts stop) :
    scan stops depth (d + position) s = .ok (ts.map (Token.moved d), d + stop) := by
  induction h with
  | nil =>
    rw [scan_nil]
    rfl
  | blank hmunch _ ih => rw [scan_blank hmunch, Nat.add_assoc, ih]
  | last hmunch hstop =>
    rw [scan_stop hmunch hstop, Nat.add_assoc]
    rfl
  | token hmunch hstop _ ih =>
    rw [scan_token hmunch hstop, Nat.add_assoc, ih]
    rfl

theorem inside_moved (tokens : List Token) (stop : Nat) :
    inside (tokens.map (Token.moved d)) (d + stop) = (inside tokens stop).map (Token.moved d) := by
  simp [inside, Token.moved, Token.endAt, List.map_dropLast]

theorem scanInside_moved {stops : List String} {position : Nat} {s : List Char}
    {ts : List Token} {stop : Nat} (h : scanInside stops position s = .ok (ts, stop)) :
    scanInside stops (d + position) s = .ok (ts.map (Token.moved d), d + stop) :=
  scanInside_eq_ok.mpr (scanned_of_scan (scanInside_eq_ok.mp h)).moved

section

variable {k n : Nat} {s : List Char}

theorem cutInterpolation_moved {kind : PieceKind} (h : cutInterpolation k s = .ok (kind, n)) :
    cutInterpolation (d + k) s = .ok (kind.moved d, n) := by
  obtain ⟨tokens, stop, t, hscan, hlast, ht, rfl, rfl⟩ := cutInterpolation_eq_ok h
  have hmoved : scanInside ["\x7d"] (d + k + 2) s = _ :=
    Nat.add_assoc d k 2 ▸ scanInside_moved (scanInside_eq_ok.mpr hscan)
  refine bind_eq_ok.mpr ⟨_, hmoved, ?_⟩
  simp only [List.getLast?_map, hlast, Option.map_some, Token.moved, ht, if_true, inside_moved,
    PieceKind.moved, Nat.add_sub_add_left]
  rfl

theorem cutDirective_moved {kind : PieceKind} (h : cutDirective k s = .ok (kind, n)) :
    cutDirective (d + k) s = .ok (kind.moved d, n) := by
  obtain ⟨tokens, stop, t, hname, hscan, hlast, ht, rfl, rfl⟩ := cutDirective_eq_ok h
  have hmoved := scanInside_moved (d := d) (scanInside_eq_ok.mpr hscan)
  rw [← Nat.add_assoc, ← Nat.add_assoc] at hmoved
  unfold cutDirective
  simp only [if_neg hname]
  refine bind_eq_ok.mpr ⟨_, hmoved, ?_⟩
  simp only [List.getLast?_map, hlast, Option.map_some, Token.moved, ht, if_true, inside_moved,
    PieceKind.moved, Nat.add_sub_add_left]
  rfl

theorem cutEndTag_moved {kind : PieceKind} (h : cutEndTag s = .ok (kind, n)) :
    kind.moved d = kind := by
  obtain ⟨-, -, -, rfl, -⟩ := cutEndTag_eq_ok h
  rfl

/-- **A text further on is cut in the same way.** -/
theorem cut_moved {content : Option PieceKind} (h : cut k s = .ok (content, n)) :
    cut (d + k) s = .ok (content.map (PieceKind.moved d), n) := by
  rcases cut_cases h with ⟨hm, rfl, rfl⟩ | ⟨hm, rfl, m, hlength, rfl⟩ |
    ⟨kind, rfl, ⟨hm, hcut⟩ | ⟨hm, hcut⟩ | ⟨hm, hcut⟩⟩
  · rw [cut, hm]
    rfl
  · rw [cut, hm]
    simp only [hlength]
    rfl
  · rw [cut, hm]
    exact bind_eq_ok.mpr ⟨_, cutInterpolation_moved hcut, rfl⟩
  · rw [cut, hm]
    exact bind_eq_ok.mpr ⟨_, cutDirective_moved hcut, rfl⟩
  · rw [cut, hm, Option.map_some, cutEndTag_moved hcut]
    exact bind_eq_ok.mpr ⟨_, hcut, rfl⟩

end

/-- A source further on has the same pieces, moved. -/
theorem Sliced.moved {k k' : Cursor} {s : List Char} {xs : List Slice} (h : Sliced k s xs)
    (hk : k'.offset = d + k.offset) :
    ∃ ys, Sliced k' s ys ∧ List.Forall₂ (Piece.Moved d) (ys.filterMap Slice.piece?)
      (xs.filterMap Slice.piece?) := by
  induction h generalizing k' with
  | nil => exact ⟨[], .nil _, .nil⟩
  | @cons k source rest content slices hne hcut _ ih =>
    have hoffset : (k'.across source).offset = d + (k.across source).offset := by
      rw [Cursor.across_offset, Cursor.across_offset, hk, Nat.add_assoc]
    obtain ⟨ys, hsliced, hpieces⟩ := ih hoffset
    have hcut' := cut_moved (d := d) hcut
    rw [← hk] at hcut'
    refine ⟨_, .cons hne hcut' hsliced, ?_⟩
    rw [List.filterMap_cons, List.filterMap_cons]
    cases content with
    | none => exact hpieces
    | some kind => exact .cons rfl hpieces

/-! ## Reading -/

/-- What tokens derive does not depend on where they stand. -/
theorem Derives.moved {k : Level} {ts : List Token} {e : Expr} (h : Derives k ts e) :
    Derives k (ts.map (Token.moved d)) e := by
  induction h with
  | operand ht => exact .operand ht
  | group hl _ hr ih =>
    rw [List.map_cons, List.map_append]
    exact .group hl ih hr
  | not ht _ ih => exact .not ht ih
  | binary _ ht _ ihl ihr =>
    rw [List.map_append, List.map_cons]
    exact .binary ihl ht ihr
  | loosen hjk _ ih => exact .loosen hjk ih

theorem Attributes.moved {given given' : List (IncludeAttribute × Expr)} {ts : List Token}
    (h : Attributes given ts given') : Attributes given (ts.map (Token.moved d)) given' := by
  induction h with
  | done => exact .done
  | next hkind hsign ha hnew hvalue _ ih =>
    rw [List.map_cons, List.map_cons, List.map_append]
    exact .next hkind hsign ha hnew hvalue.moved ih

/-- The item at another place. -/
def Item.at (place : Place) : Item → Item
  | element e => .element (e.setPlace place)
  | opening _ c => .opening place c
  | divider => .divider
  | closing => .closing

/-- A piece further on writes the same at its own place. -/
theorem Piece.Writes.moved {p q : Piece} {item : Item} (h : p.Writes item)
    (hq : q.Moved d p) : q.Writes (item.at q.place) := by
  obtain ⟨kind, place⟩ := q
  -- the end of the tokens is moved with them
  have hend : ∀ ts stop, (ts ++ [Token.endAt stop]).map (Token.moved d) =
      ts.map (Token.moved d) ++ [Token.endAt (d + stop)] := by
    intro ts stop
    rw [List.map_append]
    rfl
  cases hq
  cases h with
  | text => exact .text
  | interpolation hvalue =>
    simp only [hend]
    exact .interpolation hvalue.moved
  | assign hname hsign hvalue =>
    simp only [hend, List.map_cons]
    exact .assign hname hsign hvalue.moved
  | inclusion htarget hattributes hgiven =>
    simp only [hend, List.map_append]
    exact .inclusion htarget.moved hattributes.moved hgiven
  | opening hcondition =>
    simp only [hend]
    exact .opening hcondition.moved
  | divider => exact .divider
  | closing => exact .closing

/-! ## Blocks -/

theorem Element.unplaced_setPlace (place : Place) (e : Element) :
    (e.setPlace place).unplaced = e.unplaced := by
  rcases e with _ | _ | ⟨_, _, _, _ | _⟩ | _ | _ <;> rfl

/-- Pieces further on form the same block, of elements that agree. -/
theorem Forms.moved {ps qs : List Piece} {es : List Element} (h : Forms ps es)
    (hps : ∀ p ∈ ps, p.kind.Genuine) (hqs : List.Forall₂ (Piece.Moved d) qs ps) :
    ∃ fs, Forms qs fs ∧ Element.unplacedAll fs = Element.unplacedAll es := by
  -- on the block: each of its tags plays the same part further on
  induction h generalizing qs with
  | nil =>
    cases hqs
    exact ⟨[], .nil, rfl⟩
  | leaf hp _ ih =>
    rw [List.forall_mem_cons] at hps
    obtain ⟨q, qs, hq, hrest, rfl⟩ := List.forall₂_cons_right_iff.mp hqs
    obtain ⟨fs, hforms, hagree⟩ := ih hps.2 hrest
    refine ⟨_, .leaf ((writes_of_leaf hps.1 hp).moved hq).part_eq hforms, ?_⟩
    rw [Element.unplacedAll, Element.unplacedAll, Element.unplaced_setPlace, hagree]
  | conditional hp _ hq _ ihbody ih =>
    simp only [List.forall_mem_cons, List.forall_mem_append] at hps
    obtain ⟨hpgenuine, hbody, -, hps⟩ := hps
    obtain ⟨p', _, hp', hinside, rfl⟩ := List.forall₂_cons_right_iff.mp hqs
    obtain ⟨_, _, rfl, hfirst, htail⟩ := exists_append_of_forall₂ hinside
    obtain ⟨q', _, hq', hrest, rfl⟩ := List.forall₂_cons_right_iff.mp htail
    obtain ⟨body, hbodyForms, hbodyAgrees⟩ := ihbody hbody hfirst
    obtain ⟨fs, hforms, hagree⟩ := ih hps hrest
    refine ⟨_, .conditional ((writes_of_opening hpgenuine hp).moved hp').part_eq hbodyForms
      ((writes_of_closing hq).moved hq').part_eq hforms, ?_⟩
    simp only [Element.unplacedAll, Element.unplaced, hbodyAgrees, hagree]
  | branches hp _ hd _ hq _ ihbody ihotherwise ih =>
    simp only [List.forall_mem_cons, List.forall_mem_append] at hps
    obtain ⟨hpgenuine, hbody, hdgenuine, hotherwise, -, hps⟩ := hps
    obtain ⟨p', _, hp', hinside, rfl⟩ := List.forall₂_cons_right_iff.mp hqs
    obtain ⟨_, _, rfl, hfirst, hbehind⟩ := exists_append_of_forall₂ hinside
    obtain ⟨d', _, hd', hinside', rfl⟩ := List.forall₂_cons_right_iff.mp hbehind
    obtain ⟨_, _, rfl, hsecond, htail⟩ := exists_append_of_forall₂ hinside'
    obtain ⟨q', _, hq', hrest, rfl⟩ := List.forall₂_cons_right_iff.mp htail
    obtain ⟨body, hbodyForms, hbodyAgrees⟩ := ihbody hbody hfirst
    obtain ⟨otherwise, hotherwiseForms, hotherwiseAgrees⟩ := ihotherwise hotherwise hsecond
    obtain ⟨fs, hforms, hagree⟩ := ih hps hrest
    refine ⟨_, .branches ((writes_of_opening hpgenuine hp).moved hp').part_eq hbodyForms
      ((writes_of_divider hdgenuine hd).moved hd').part_eq hotherwiseForms
      ((writes_of_closing hq).moved hq').part_eq hforms, ?_⟩
    simp only [Element.unplacedAll, Element.unplaced, hbodyAgrees, hotherwiseAgrees, hagree]

end Stencil

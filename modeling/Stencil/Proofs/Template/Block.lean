import Stencil.Template.Parser

/-!
# Blocks of pieces

A block is a run of pieces in which every conditional is closed: elements by themselves, and
conditionals around one block or two. Building elements from pieces succeeds exactly on blocks, and
gives the elements of the block.

## Main definitions

* `Forms ps es` says that the pieces are a block with the elements `es`.
* `Held` is what the pieces met so far amount to while some conditionals are open.

## Main results

* `build_eq_ok_iff`: building succeeds exactly on blocks.
-/

namespace Stencil

/-- The pieces are a block of the elements. -/
inductive Forms : List Piece → List Element → Prop
  | nil : Forms [] []
  | leaf {p : Piece} {e : Element} {ps : List Piece} {es : List Element}
      (hp : p.part = .leaf (.ok e)) (hps : Forms ps es) : Forms (p :: ps) (e :: es)
  | conditional {p q : Piece} {c : Expr} {qs ps : List Piece} {body es : List Element}
      (hp : p.part = .opening (.ok c)) (hbody : Forms qs body) (hq : q.part = .closing "if")
      (hps : Forms ps es) :
      Forms (p :: (qs ++ q :: ps)) (.conditional p.place c body none :: es)
  | branches {p d q : Piece} {c : Expr} {qs rs ps : List Piece} {body otherwise es : List Element}
      (hp : p.part = .opening (.ok c)) (hbody : Forms qs body) (hd : d.part = .divider false)
      (hotherwise : Forms rs otherwise) (hq : q.part = .closing "if") (hps : Forms ps es) :
      Forms (p :: (qs ++ d :: (rs ++ q :: ps)))
        (.conditional p.place c body (some otherwise) :: es)

theorem Forms.append {ps qs : List Piece} {es fs : List Element} (h : Forms ps es)
    (h' : Forms qs fs) : Forms (ps ++ qs) (es ++ fs) := by
  induction h with
  | nil => exact h'
  | leaf hp _ ih => exact .leaf hp ih
  | conditional hp hbody hq _ _ ih => simpa using Forms.conditional hp hbody hq ih
  | branches hp hbody hd hotherwise hq _ _ _ ih =>
    simpa using Forms.branches hp hbody hd hotherwise hq ih

/-! ## Building a block -/

section

variable {p : Piece} (stack : List OpenConditional) (done : List Element) (ps : List Piece)

theorem build_leaf {e : Element} (hp : p.part = .leaf (.ok e)) :
    build stack done (p :: ps) = build stack (e :: done) ps := by
  rw [build, hp]

theorem build_opening {c : Expr} (hp : p.part = .opening (.ok c)) :
    build stack done (p :: ps) = build (⟨p.place, c, done, none⟩ :: stack) [] ps := by
  rw [build, hp]

theorem build_divider (hp : p.part = .divider false) (place : Place) (c : Expr)
    (before : List Element) :
    build (⟨place, c, before, none⟩ :: stack) done (p :: ps) =
      build (⟨place, c, before, some done.reverse⟩ :: stack) [] ps := by
  rw [build, hp]
  rfl

theorem build_closing (hp : p.part = .closing "if") (f : OpenConditional) :
    build (f :: stack) done (p :: ps) = build stack (f.close done.reverse :: f.before) ps := by
  rw [build, hp]
  rfl

end

/-- A block puts its elements behind those that are there, whatever is open around it. -/
theorem build_of_forms {ps : List Piece} {es : List Element} (h : Forms ps es)
    (stack : List OpenConditional) (done : List Element) (rest : List Piece) :
    build stack done (ps ++ rest) = build stack (es.reverse ++ done) rest := by
  -- on the block: its branches are built with the conditional on top of the stack
  induction h generalizing stack done rest with
  | nil => rfl
  | leaf hp _ ih =>
    rw [List.cons_append, build_leaf _ _ _ hp, ih, List.reverse_cons, List.append_assoc]
    rfl
  | @conditional p q c qs ps body es hp _ hq _ ihbody ih =>
    rw [List.cons_append, List.append_assoc, build_opening _ _ _ hp, ihbody, List.cons_append,
      build_closing _ _ _ hq, ih]
    simp [OpenConditional.close]
  | @branches p d q c qs rs ps body otherwise es hp _ hd _ hq _ ihbody ihotherwise ih =>
    rw [List.cons_append, List.append_assoc, build_opening _ _ _ hp, ihbody, List.cons_append,
      build_divider _ _ _ hd, List.append_assoc, ihotherwise, List.cons_append,
      build_closing _ _ _ hq, ih]
    simp [OpenConditional.close]

/-! ## What has been built is a block -/

/-- The pieces met so far, while the conditionals on the stack are open: a block, then for each open
conditional its opening and a block, and behind its `else` another block. -/
inductive Held : List OpenConditional → List Element → List Piece → Prop
  | outside {done : List Element} {ps : List Piece} (h : Forms ps done.reverse) : Held [] done ps
  | first {f : OpenConditional} {outer : List OpenConditional} {done : List Element}
      {us ps : List Piece} {p : Piece} (houter : Held outer f.before us)
      (hp : p.part = .opening (.ok f.condition)) (hplace : p.place = f.place)
      (hbody : f.body = none) (h : Forms ps done.reverse) : Held (f :: outer) done (us ++ p :: ps)
  | second {f : OpenConditional} {outer : List OpenConditional} {body done : List Element}
      {us ps qs : List Piece} {p d : Piece} (houter : Held outer f.before us)
      (hp : p.part = .opening (.ok f.condition)) (hplace : p.place = f.place)
      (hfirst : Forms ps body) (hbody : f.body = some body) (hd : d.part = .divider false)
      (h : Forms qs done.reverse) : Held (f :: outer) done (us ++ p :: (ps ++ d :: qs))

/-- An element that is finished goes behind those of the innermost branch. -/
theorem Held.push {stack : List OpenConditional} {done : List Element} {us ps : List Piece}
    {e : Element} (h : Held stack done us) (he : Forms ps [e]) :
    Held stack (e :: done) (us ++ ps) := by
  have hforms : ∀ {qs}, Forms qs done.reverse → Forms (qs ++ ps) (e :: done).reverse := by
    intro qs h
    rw [List.reverse_cons]
    exact h.append he
  cases h with
  | outside h => exact .outside (hforms h)
  | first houter hp hplace hbody h =>
    simpa using Held.first houter hp hplace hbody (hforms h)
  | second houter hp hplace hfirst hbody hd h =>
    simpa using Held.second houter hp hplace hfirst hbody hd (hforms h)

/-- An `else` begins the second branch of the innermost conditional. -/
theorem Held.divide {place : Place} {c : Expr} {before done : List Element}
    {outer : List OpenConditional} {us : List Piece} {d : Piece}
    (h : Held (⟨place, c, before, none⟩ :: outer) done us) (hd : d.part = .divider false) :
    Held (⟨place, c, before, some done.reverse⟩ :: outer) [] (us ++ [d]) := by
  cases h with
  | first houter hp hplace _ h =>
    -- the second branch begins with no elements
    have hempty : Forms [] ([] : List Element).reverse := .nil
    simpa using Held.second (f := ⟨place, c, before, some done.reverse⟩) houter hp hplace h rfl hd
      hempty
  -- a conditional that is in its second branch takes no other `else`
  | second _ _ _ _ hbody _ _ => cases hbody

/-- Closing the innermost conditional makes one element of it. -/
theorem Held.close {f : OpenConditional} {outer : List OpenConditional} {done : List Element}
    {us : List Piece} {q : Piece} (h : Held (f :: outer) done us) (hq : q.part = .closing "if") :
    Held outer (f.close done.reverse :: f.before) (us ++ [q]) := by
  cases h with
  | first houter hp hplace hbody h =>
    have helement := Forms.conditional hp h hq .nil
    simpa [OpenConditional.close, hbody, hplace] using houter.push helement
  | second houter hp hplace hfirst hbody hd h =>
    have helement := Forms.branches hp hfirst hd h hq .nil
    simpa [OpenConditional.close, hbody, hplace] using houter.push helement

/-- What is built from the pieces that are left, behind those met so far, is one block. -/
theorem forms_of_build {stack : List OpenConditional} {done es : List Element}
    {us ps : List Piece} (hheld : Held stack done us) (h : build stack done ps = .ok es) :
    Forms (us ++ ps) es := by
  -- on the pieces that are left: each of them moves on to what is held
  induction ps generalizing stack done us with
  | nil =>
    -- at the end no conditional may be open
    cases hheld with
    | outside hforms =>
      rw [build] at h
      cases h
      rwa [List.append_nil]
    | first => rw [build] at h; cases h
    | second => rw [build] at h; cases h
  | cons p ps ih =>
    have happend : us ++ p :: ps = us ++ [p] ++ ps := by simp
    rw [happend]
    cases hpart : p.part with
    | leaf result =>
      cases result with
      | ok e =>
        rw [build_leaf _ _ _ hpart] at h
        exact ih (hheld.push (.leaf hpart .nil)) h
      | error e => rw [build, hpart] at h; cases h
    | opening condition =>
      cases condition with
      | ok c =>
        rw [build_opening _ _ _ hpart] at h
        have hempty : Forms [] ([] : List Element).reverse := .nil
        exact ih (.first hheld hpart rfl rfl hempty) h
      | error e => rw [build, hpart] at h; cases h
    | divider hasParameters =>
      rw [build, hpart] at h
      simp only at h
      split at h
      · split at h
        · cases h
        · next hparameters =>
          rw [Bool.not_eq_true] at hparameters
          exact ih (hheld.divide (hparameters ▸ hpart)) h
      · cases h
    | closing name =>
      rw [build, hpart] at h
      simp only at h
      split at h
      · split at h
        · next hname => exact ih (hheld.close (hname ▸ hpart)) h
        · cases h
      · cases h

/-- **Building succeeds exactly on blocks**, and gives their elements. -/
theorem build_eq_ok_iff {ps : List Piece} {es : List Element} :
    build [] [] ps = .ok es ↔ Forms ps es := by
  constructor
  · intro h
    have hheld : Held [] [] [] := .outside .nil
    simpa using forms_of_build hheld h
  · intro h
    have hbuild := build_of_forms h [] [] []
    rw [List.append_nil, List.append_nil, build, List.reverse_reverse] at hbuild
    exact hbuild

end Stencil

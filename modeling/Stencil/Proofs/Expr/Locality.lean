import Stencil.Proofs.Expr.RoundTrip

/-!
# What a scan reads

A scan reads the text up to where it ends, and nothing of that is lost: the text is the tokens, one
after the other, with nothing but blanks between them. How long a lexeme is depends on no more than
the character behind it, unless that is a point behind a numeral; and a point begins no lexeme. So a
scan that ends at a stop token has not looked at what stands behind that token.

## Main definitions

* `Laid position text ts` says that a text is laid out as tokens and blanks.
* `StopsBehind` says that tokens end with a stop token outside parentheses.

## Main results

* `munch_local`: a lexeme depends on the next character only.
* `Scanned.laid`: what a scan has read is laid out as its tokens.
* `Scanned.local`: what stands behind a stop token is not looked at.
* `listUntil_lossless_and_local`: both, and how a scan can fail.
-/

namespace Stencil

/-! ## Lexemes and the next character -/

section

variable {p : Char → Bool} {cs rest : List Char} {d : Char}

/-- A run ends in front of a character that is not of its class. -/
theorem length_takeWhile_eq_iff :
    ((cs ++ d :: rest).takeWhile p).length = cs.length ↔
      (∀ c ∈ cs, p c = true) ∧ p d = false := by
  induction cs with
  | nil => simp [List.takeWhile_cons, apply_ite List.length]
  | cons c cs ih =>
    rw [List.cons_append, List.takeWhile_cons, List.forall_mem_cons]
    split
    · next hc => rw [List.length_cons, List.length_cons, Nat.add_right_cancel_iff, ih, and_assoc,
        and_iff_right hc]
    · next hc => simp [hc]

theorem takeWhile_local (h : ((cs ++ d :: rest).takeWhile p).length = cs.length)
    (more : List Char) : (cs ++ d :: more).takeWhile p = cs := by
  obtain ⟨hcs, hd⟩ := length_takeWhile_eq_iff.mp h
  exact takeWhile_run hcs (by simpa using hd)

end

/-- A character that is no backslash closes the literal, or the search goes on behind it. -/
theorem closeQuote_cons {mark c : Char} (h : c ≠ '\\') (rest : List Char) :
    closeQuote mark (c :: rest) =
      if c = mark then some 1 else (closeQuote mark rest).map (· + 1) := by
  rw [closeQuote]
  all_goals
    intros
    exact h ‹_›

/-- A literal ends at the quote that closes it, whatever stands behind. -/
theorem closeQuote_take {mark : Char} {s : List Char} {n : Nat} (h : closeQuote mark s = some n)
    (more : List Char) : closeQuote mark (s.take n ++ more) = some n := by
  fun_induction closeQuote mark s generalizing n with
  | case1 => cases h
  | case2 => cases h
  | case3 c rest ih =>
    obtain ⟨m, hm, rfl⟩ := Option.map_eq_some_iff.mp h
    rw [List.take_succ_cons, List.take_succ_cons, List.cons_append, List.cons_append, closeQuote,
      ih hm, Option.map_some]
  | case4 rest hlast hescape =>
    cases h
    have hplain : mark ≠ '\\' := fun hmark => by
      cases rest with
      | nil => exact hlast hmark rfl
      | cons c rest => exact hescape c rest hmark rfl
    rw [List.take_succ_cons, List.cons_append, closeQuote_cons hplain, if_pos rfl]
  | case5 c rest hlast hescape hmark ih =>
    obtain ⟨m, hm, rfl⟩ := Option.map_eq_some_iff.mp h
    have hplain : c ≠ '\\' := fun hc => by
      cases rest with
      | nil => exact hlast hc rfl
      | cons d rest => exact hescape d rest hc rfl
    rw [List.take_succ_cons, List.cons_append, closeQuote_cons hplain, if_neg hmark, ih hm,
      Option.map_some]

section

variable {digits rest : List Char}

/-- Digits are a numeral where neither a digit nor a point follows. -/
theorem numeralLength_whole (hdigits : ∀ c ∈ digits, isDigit c = true)
    (hrest : ∀ c ∈ rest.head?, isDigit c = false ∧ c ≠ '.') :
    numeralLength (digits ++ rest) = digits.length := by
  have hstop : ∀ c ∈ rest.head?, isDigit c = false := fun c hc => (hrest c hc).1
  rw [numeralLength, takeWhile_run hdigits hstop, dropWhile_run hdigits hstop]
  split
  · exact absurd rfl (hrest '.' rfl).2
  · rfl

/-- Digits go on behind a point if there are any. -/
theorem numeralLength_point (hdigits : ∀ c ∈ digits, isDigit c = true) :
    numeralLength (digits ++ '.' :: rest) =
      if (rest.takeWhile isDigit).isEmpty then digits.length
      else digits.length + 1 + (rest.takeWhile isDigit).length := by
  have hstop : ∀ c ∈ ('.' :: rest).head?, isDigit c = false := by
    intro c hc
    cases hc
    decide
  rw [numeralLength, takeWhile_run hdigits hstop, dropWhile_run hdigits hstop]
  rfl

end

/-- What a class of characters leaves of a text does not begin with one of them. -/
theorem head_dropWhile (p : Char → Bool) (cs : List Char) :
    ∀ c ∈ (cs.dropWhile p).head?, p c = false := by
  intro c hc
  simpa [Option.mem_def.mp hc] using List.head?_dropWhile_not p cs

/-- How long a numeral is depends on the character behind it, unless that is a point. -/
theorem numeralLength_local {cs rest : List Char} {d : Char}
    (h : numeralLength (cs ++ d :: rest) = cs.length) (hd : d ≠ '.') (more : List Char) :
    numeralLength (cs ++ d :: more) = cs.length := by
  have hdigits := mem_takeWhile isDigit (cs ++ d :: rest)
  have hafter := head_dropWhile isDigit (cs ++ d :: rest)
  have hsplit : cs ++ d :: rest = _ := List.takeWhile_append_dropWhile (p := isDigit).symm
  generalize (cs ++ d :: rest).takeWhile isDigit = digits at hdigits hsplit
  generalize (cs ++ d :: rest).dropWhile isDigit = after at hafter hsplit
  rw [hsplit] at h
  by_cases hpoint : after.head? = some '.'
  · obtain ⟨r, rfl⟩ := List.head?_eq_some_iff.mp hpoint
    rw [numeralLength_point hdigits] at h
    split at h
    · -- nothing but the point itself could follow
      obtain ⟨-, hrest⟩ := List.append_inj hsplit h.symm
      exact absurd (List.cons.inj hrest).1 hd
    · next hfraction =>
      have hparts : cs ++ d :: rest =
          (digits ++ '.' :: r.takeWhile isDigit) ++ r.dropWhile isDigit := by
        rw [hsplit, List.append_assoc, List.cons_append, List.takeWhile_append_dropWhile]
      obtain ⟨rfl, hrest⟩ := List.append_inj hparts (by simp [← h]; omega)
      have hstop : ∀ c ∈ (d :: more).head?, isDigit c = false := by
        intro c hc
        cases hc
        exact head_dropWhile isDigit r d (by simp [← hrest])
      rw [List.append_assoc, List.cons_append, numeralLength_point hdigits,
        takeWhile_run (mem_takeWhile isDigit r) hstop, if_neg hfraction, h]
  · have hnext : ∀ c ∈ after.head?, isDigit c = false ∧ c ≠ '.' := fun c hc =>
      ⟨hafter c hc, fun hc' => hpoint (hc' ▸ hc)⟩
    rw [numeralLength_whole hdigits hnext] at h
    obtain ⟨rfl, rfl⟩ := List.append_inj hsplit h.symm
    exact numeralLength_whole hdigits fun c hc => hnext c hc

/-! ## Lexemes -/

/-- A point begins no lexeme. -/
theorem munch_point (rest : List Char) : munch '.' rest = none := by
  rw [munch]
  rfl

/-- What a sign is depends on the next character alone. -/
theorem munch_sign_congr {c : Char} (hblank : ¬isBlank c = true) (hquote : ¬(c = '"' ∨ c = '\''))
    (hdigit : ¬isDigit c = true) (hname : ¬isNameStart c = true) {cs ds : List Char}
    (h : cs.head? = ds.head?) : munch c cs = munch c ds := by
  simp only [munch, if_neg hblank, if_neg hquote, if_neg hdigit, if_neg hname, operatorLength, h]

/-- **How far a lexeme reaches depends on the character behind it**, unless that is a point. -/
theorem munch_local {c d : Char} {cs rest : List Char} {lexeme : Lexeme}
    (h : munch c (cs ++ d :: rest) = some (lexeme, cs.length)) (hd : d ≠ '.') (more : List Char) :
    munch c (cs ++ d :: more) = some (lexeme, cs.length) := by
  by_cases hblank : isBlank c = true
  · rw [munch, if_pos hblank] at h ⊢
    obtain ⟨rfl, hlength⟩ := Prod.mk.inj (Option.some.inj h)
    rw [takeWhile_local hlength]
  by_cases hquote : c = '"' ∨ c = '\''
  · rw [munch, if_neg hblank, if_pos hquote] at h ⊢
    obtain ⟨n, hclose, heq⟩ := Option.map_eq_some_iff.mp h
    obtain ⟨rfl, rfl⟩ := Prod.mk.inj heq
    have hsame := closeQuote_take hclose (d :: more)
    rw [List.take_left' rfl] at hsame
    rw [hsame]
    rfl
  by_cases hdigit : isDigit c = true
  · rw [munch_digit hdigit] at h ⊢
    obtain ⟨rfl, hlength⟩ := Prod.mk.inj (Option.some.inj h)
    rw [numeralLength_local hlength hd]
  by_cases hname : isNameStart c = true
  · rw [munch_nameStart hname] at h ⊢
    obtain ⟨hkind, hlength⟩ := Prod.mk.inj (Option.some.inj h)
    rw [takeWhile_local hlength rest] at hkind
    rw [takeWhile_local hlength more, hkind]
  · have hhead : (cs ++ d :: more).head? = (cs ++ d :: rest).head? := by cases cs <;> rfl
    rw [munch_sign_congr hblank hquote hdigit hname hhead, h]

/-- A stop token ends by itself. -/
theorem munch_terminator {stops : List String} (hstops : Terminators stops) {c : Char}
    {cs : List Char} {kind : TokenKind} {n : Nat} (h : munch c cs = some (.token kind, n))
    (hstop : String.ofList (c :: cs.take n) ∈ stops) (more : List Char) :
    munch c (cs.take n ++ more) = some (.token kind, n) := by
  have hn : (cs.take n).length = n := List.length_take_of_le (munch_le h)
  have hchars : c :: cs.take n ∈ [['\x7d'], ['>'], ['/', '>']] := by
    have hmem := List.mem_map_of_mem (f := String.toList) (hstops _ hstop)
    rwa [String.toList_ofList] at hmem
  simp only [List.mem_cons, List.cons.injEq, List.not_mem_nil, or_false] at hchars
  -- each of the three is told by its characters
  rcases hchars with ⟨rfl, hcs⟩ | ⟨rfl, hcs⟩ | ⟨rfl, hcs⟩
  · rw [hcs] at hn ⊢
    subst hn
    exact h
  · rw [hcs] at hn ⊢
    subst hn
    exact h
  · rw [hcs] at hn ⊢
    subst hn
    obtain ⟨e, cs', rfl⟩ := List.exists_cons_of_ne_nil (l := cs) (by rintro rfl; cases hcs)
    cases hcs
    exact h

/-- The end of a tag is one of two marks. -/
theorem text_of_munch_tagEnd {c : Char} {cs : List Char} {n : Nat}
    (h : munch c cs = some (.token .tagEnd, n)) :
    String.ofList (c :: cs.take n) ∈ [">", "/>"] := by
  unfold munch at h
  split at h
  · cases h
  split at h
  · obtain ⟨_, -, heq⟩ := Option.map_eq_some_iff.mp h
    cases heq
  split at h
  · cases h
  split at h
  · obtain ⟨hkind, -⟩ := Prod.mk.inj (Option.some.inj h)
    split at hkind <;> cases hkind
  split at h
  · next hc =>
    split at h
    · next hhead =>
      cases h
      obtain ⟨rest, rfl⟩ := List.head?_eq_some_iff.mp hhead
      rw [hc, List.take_succ_cons, List.take_zero]
      decide
    · cases h
  split at h
  · next hc =>
    cases h
    rw [hc, List.take_zero]
    decide
  -- no other character begins the end of a tag
  split at h
  · cases h
  split at h
  · cases h
  split at h
  · split at h <;> cases h
  split at h <;> cases h

/-- A parenthesis is a token by itself. -/
theorem kind_of_munch_parenthesis {c : Char} {cs : List Char} {kind : TokenKind} {n : Nat}
    (h : munch c cs = some (.token kind, n))
    (htext : String.ofList (c :: cs.take n) = "(" ∨ String.ofList (c :: cs.take n) = ")") :
    kind = .symbol := by
  have hchar : c = '(' ∨ c = ')' :=
    htext.imp (fun h => (List.cons.inj (String.ofList_injective h)).1)
      fun h => (List.cons.inj (String.ofList_injective h)).1
  rcases hchar with rfl | rfl
  · cases h
    rfl
  · cases h
    rfl

theorem blanks_of_munch {c : Char} {cs : List Char} {n : Nat} (h : munch c cs = some (.blank, n)) :
    ∀ d ∈ c :: cs.take n, isBlank d = true := by
  by_cases hblank : isBlank c = true
  · rw [munch, if_pos hblank] at h
    cases h
    rw [take_takeWhile_length, List.forall_mem_cons]
    exact ⟨hblank, mem_takeWhile isBlank cs⟩
  -- no other character begins a run of blanks
  by_cases hquote : c = '"' ∨ c = '\''
  · rw [munch, if_neg hblank, if_pos hquote] at h
    obtain ⟨_, -, heq⟩ := Option.map_eq_some_iff.mp h
    cases heq
  by_cases hdigit : isDigit c = true
  · rw [munch_digit hdigit] at h
    cases h
  by_cases hname : isNameStart c = true
  · rw [munch_nameStart hname] at h
    cases h
  · exact absurd (munch_sign hblank hquote hdigit hname h).1 (by decide)

/-! ## How a text is laid out -/

/-- The text, from the position on, is the tokens one after the other, each at its position, with
nothing but blanks between them and at the ends. -/
inductive Laid : Nat → List Char → List Token → Prop
  | nil {position : Nat} : Laid position [] []
  | blank {position : Nat} {c : Char} {text : List Char} {ts : List Token}
      (hc : isBlank c = true) (h : Laid (position + 1) text ts) : Laid position (c :: text) ts
  | token {position : Nat} {kind : TokenKind} {lexeme text : List Char} {ts : List Token}
      (h : Laid (position + lexeme.length) text ts) :
      Laid position (lexeme ++ text) (⟨kind, String.ofList lexeme, position⟩ :: ts)

theorem Laid.endAt {position : Nat} : Laid position [] [Token.endAt position] :=
  @Laid.token position .eof [] [] [] .nil

theorem Laid.blanks {position : Nat} {blanks text : List Char} {ts : List Token}
    (hblanks : ∀ c ∈ blanks, isBlank c = true) (h : Laid (position + blanks.length) text ts) :
    Laid position (blanks ++ text) ts := by
  induction blanks generalizing position with
  | nil => exact h
  | cons c blanks ih =>
    rw [List.forall_mem_cons] at hblanks
    refine .blank hblanks.1 (ih hblanks.2 ?_)
    rwa [List.length_cons, Nat.add_comm blanks.length, ← Nat.add_assoc] at h

/-- Each token stands at its position. -/
theorem Laid.stands {position : Nat} {text : List Char} {ts : List Token}
    (h : Laid position text ts) : ∀ t ∈ ts, ∃ before after,
      text = before ++ (t.text.toList ++ after) ∧ t.position = position + before.length := by
  induction h with
  | nil => exact List.forall_mem_nil _
  | @blank position c text ts _ _ ih =>
    intro t ht
    obtain ⟨before, after, rfl, hposition⟩ := ih t ht
    refine ⟨c :: before, after, rfl, ?_⟩
    rw [hposition, List.length_cons]
    omega
  | @token position kind lexeme text ts _ ih =>
    intro t ht
    rcases List.mem_cons.mp ht with rfl | ht
    · exact ⟨[], text, by simp, rfl⟩
    · obtain ⟨before, after, rfl, hposition⟩ := ih t ht
      refine ⟨lexeme ++ before, after, by rw [List.append_assoc], ?_⟩
      rw [hposition, List.length_append, Nat.add_assoc]

/-! ## Where a scan ends -/

/-- The number of open parentheses behind tokens. -/
def depthBehind (depth : Nat) (ts : List Token) : Nat :=
  ts.foldl (fun d t => depthAfter d t.text) depth

/-- The tokens, of which the first stands inside `depth` open parentheses, end with a stop token
outside parentheses. -/
def StopsBehind (stops : List String) (depth : Nat) (ts : List Token) : Prop :=
  ∃ front last, ts = front ++ [last] ∧ stopsAt stops (depthBehind depth front) last.text = true

theorem StopsBehind.ne_nil {stops : List String} {depth : Nat} {ts : List Token}
    (h : StopsBehind stops depth ts) : ts ≠ [] := by
  obtain ⟨front, last, rfl, -⟩ := h
  exact List.append_ne_nil_of_right_ne_nil _ (List.cons_ne_nil _ _)

/-- A token that does not end a scan is followed by one that does. -/
theorem StopsBehind.tail {stops : List String} {depth : Nat} {t : Token} {ts : List Token}
    (h : StopsBehind stops depth (t :: ts)) (ht : stopsAt stops depth t.text = false) :
    StopsBehind stops (depthAfter depth t.text) ts := by
  obtain ⟨front, last, hts, hlast⟩ := h
  cases front with
  | nil =>
    cases hts
    rw [depthBehind, List.foldl_nil, ht] at hlast
    cases hlast
  | cons u front =>
    cases hts
    exact ⟨front, last, rfl, hlast⟩

variable {stops : List String} {depth position stop : Nat} {text : List Char} {ts : List Token}

/-- The part of a text up to where a scan ends begins with its first lexeme. -/
theorem take_step {c : Char} {cs : List Char} {n : Nat} (h : position + (n + 1) ≤ stop) :
    (c :: cs).take (stop - position) =
      c :: (cs.take n ++ (cs.drop n).take (stop - (position + (n + 1)))) := by
  obtain ⟨m, rfl⟩ := Nat.exists_eq_add_of_le h
  have hlength : position + (n + 1) + m - position = n + m + 1 := by omega
  rw [hlength, List.take_succ_cons, List.take_add, Nat.add_sub_cancel_left]

theorem take_lexeme {c : Char} {cs : List Char} (n : Nat) :
    (c :: cs).take (position + (n + 1) - position) = c :: cs.take n := by
  rw [Nat.add_sub_cancel_left, List.take_succ_cons]

theorem length_lexeme {c d : Char} {cs : List Char} {lexeme : Lexeme} {n : Nat}
    (h : munch c cs = some (lexeme, n)) : (d :: cs.take n).length = n + 1 := by
  rw [List.length_cons, List.length_take_of_le (munch_le h)]

/-- **Nothing is lost.** What a scan has read is laid out as its tokens. -/
theorem Scanned.laid (h : Scanned stops depth position text ts stop) :
    Laid position (text.take (stop - position)) (ts ++ [Token.endAt stop]) := by
  induction h with
  | nil =>
    rw [List.take_nil]
    exact .endAt
  | @blank depth position stop n c cs ts hmunch hnext ih =>
    rw [take_step hnext.bounds.1, ← List.cons_append]
    refine .blanks (blanks_of_munch hmunch) ?_
    rwa [length_lexeme hmunch]
  | @last depth position n c cs kind hmunch hstop =>
    have hend :
        Laid (position + (c :: cs.take n).length) [] [Token.endAt (position + (n + 1))] := by
      rw [length_lexeme hmunch]
      exact .endAt
    have hlaid := @Laid.token position kind _ _ _ hend
    rw [take_lexeme]
    rwa [List.append_nil] at hlaid
  | @token depth position stop n c cs kind ts hmunch hstop hnext ih =>
    rw [take_step hnext.bounds.1, ← List.cons_append]
    refine .token ?_
    rwa [length_lexeme hmunch]

/-- A token, if there is one, begins in front of the end of the scan and with no point. -/
theorem Scanned.head (h : Scanned stops depth position text ts stop) (hts : ts ≠ []) :
    ∃ d rest, text = d :: rest ∧ d ≠ '.' ∧ position < stop := by
  have hpoint : ∀ {c : Char} {cs : List Char} {r : Lexeme × Nat},
      munch c cs = some r → c ≠ '.' := by
    rintro c cs r hmunch rfl
    rw [munch_point] at hmunch
    cases hmunch
  cases h with
  | nil => exact absurd rfl hts
  | blank hmunch hnext => exact ⟨_, _, rfl, hpoint hmunch, by have := hnext.bounds.1; omega⟩
  | last hmunch => exact ⟨_, _, rfl, hpoint hmunch, by omega⟩
  | token hmunch _ hnext => exact ⟨_, _, rfl, hpoint hmunch, by have := hnext.bounds.1; omega⟩

/-- The end of a tag ends the scan of its inside where no parenthesis is open. -/
theorem Scanned.stopsAt_tagEnd (h : Scanned stops depth position text ts stop) :
    ∀ t ∈ ts, t.kind = .tagEnd → stopsAt [">", "/>"] 0 t.text = true := by
  refine h.forall_mem fun position hmunch hkind => ?_
  cases hkind
  have hmark : ∀ text ∈ [">", "/>"], stopsAt [">", "/>"] 0 text = true := by decide
  exact hmark _ (text_of_munch_tagEnd hmunch)

/-- A lexeme with tokens behind it does not change with what stands behind those. -/
theorem munch_before {c : Char} {cs : List Char} {lexeme : Lexeme} {n : Nat}
    (hmunch : munch c cs = some (lexeme, n))
    (hnext : Scanned stops depth position (cs.drop n) ts stop) (hts : ts ≠ [])
    (more : List Char) :
    munch c (cs.take n ++ ((cs.drop n).take (stop - position) ++ more)) = some (lexeme, n) := by
  obtain ⟨d, rest, hdrop, hd, hlt⟩ := hnext.head hts
  have hn : (cs.take n).length = n := List.length_take_of_le (munch_le hmunch)
  obtain ⟨m, hm⟩ : ∃ m, stop - position = m + 1 := ⟨stop - position - 1, by omega⟩
  have hmunch' : munch c (cs.take n ++ d :: rest) = some (lexeme, (cs.take n).length) := by
    rw [hn, ← hdrop, List.take_append_drop, hmunch]
  have hlocal := munch_local hmunch' hd (rest.take m ++ more)
  rw [hdrop, hm, List.take_succ_cons]
  rwa [hn] at hlocal

/-- **What stands behind a stop token is not looked at.** With any other text there, the scan gives
the same tokens and ends at the same position. -/
theorem Scanned.local (h : Scanned stops depth position text ts stop) (hstops : Terminators stops)
    (hend : StopsBehind stops depth ts) (more : List Char) :
    scan stops depth position (text.take (stop - position) ++ more) = .ok (ts, stop) := by
  induction h with
  | nil => exact absurd rfl hend.ne_nil
  | @blank depth position stop n c cs ts hmunch hnext ih =>
    have hn : (cs.take n).length = n := List.length_take_of_le (munch_le hmunch)
    rw [take_step hnext.bounds.1, List.cons_append, List.append_assoc,
      scan_blank (munch_before hmunch hnext hend.ne_nil more), List.drop_left' hn]
    exact ih hend
  | @last depth position n c cs kind hmunch hstop =>
    have hn : (cs.take n).length = n := List.length_take_of_le (munch_le hmunch)
    have hmem : String.ofList (c :: cs.take n) ∈ stops := by
      simp only [stopsAt, Bool.and_eq_true, List.contains_iff_mem] at hstop
      exact hstop.2
    have hmunch' := munch_terminator hstops hmunch hmem more
    rw [take_lexeme, List.cons_append, scan_stop hmunch' (by rwa [List.take_left' hn]),
      List.take_left' hn]
  | @token depth position stop n c cs kind ts hmunch hstop hnext ih =>
    have hn : (cs.take n).length = n := List.length_take_of_le (munch_le hmunch)
    -- the stop token is one of those that follow
    have hrest := hend.tail hstop
    have hmunch' := munch_before hmunch hnext hrest.ne_nil more
    rw [take_step hnext.bounds.1, List.cons_append, List.append_assoc,
      scan_token hmunch' (by rwa [List.take_left' hn]), List.take_left' hn, List.drop_left' hn,
      ih hrest]
    rfl

/-- A scan ends at a stop token outside parentheses or at the end of the text. -/
theorem Scanned.ends (h : Scanned stops depth position text ts stop) :
    StopsBehind stops depth ts ∨ stop = position + text.length := by
  induction h with
  | nil => exact .inr rfl
  | @blank depth position stop n c cs ts hmunch _ ih =>
    refine ih.imp_right fun hstop => ?_
    have hle := munch_le hmunch
    rw [hstop, List.length_drop, List.length_cons]
    omega
  | last _ hstop => exact .inl ⟨[], _, rfl, hstop⟩
  | @token depth position stop n c cs kind ts hmunch _ _ ih =>
    refine ih.imp (fun hend => ?_) fun hstop => ?_
    · obtain ⟨front, last, rfl, hlast⟩ := hend
      exact ⟨_ :: front, last, rfl, hlast⟩
    · have hle := munch_le hmunch
      rw [hstop, List.length_drop, List.length_cons]
      omega

/-- A scan that has ended in front of other text, or at a stop token outside parentheses, reads the
same in front of any text. -/
theorem scan_append {body rest : List Char} (hstops : Terminators stops)
    (h : scan stops depth position (body ++ rest) = .ok (ts, position + body.length))
    (hrest : rest = [] → StopsBehind stops depth ts) (more : List Char) :
    scan stops depth position (body ++ more) = .ok (ts, position + body.length) := by
  have hscanned := scanned_of_scan h
  have hend : StopsBehind stops depth ts := by
    rcases hscanned.ends with hend | hstop
    · exact hend
    · rw [List.length_append] at hstop
      exact hrest (List.length_eq_zero_iff.mp (by omega))
  have hlocal := hscanned.local hstops hend more
  rwa [Nat.add_sub_cancel_left, List.take_left] at hlocal

/-! ## How a scan fails -/

/-- A scan fails at a character that begins no lexeme, behind text that is laid out as tokens. -/
theorem exists_of_scan_eq_error {e : ExprError} (h : scan stops depth position text = .error e) :
    ∃ before c rest ts, text = before ++ c :: rest ∧ Laid position before ts ∧
      munch c rest = none ∧
      e = if c = '"' ∨ c = '\'' then .unterminatedString (position + before.length)
        else .unexpectedCharacter c (position + before.length) := by
  -- positions count on behind the lexeme in front
  have hshift : ∀ {c : Char} {cs before : List Char} {lexeme : Lexeme} {n position : Nat},
      munch c cs = some (lexeme, n) →
        position + (n + 1) + before.length = position + (c :: cs.take n ++ before).length := by
    intro c cs before lexeme n position hmunch
    rw [List.length_append, length_lexeme hmunch, Nat.add_assoc]
  fun_induction scan stops depth position text with
  | case1 => cases h
  | case2 depth position c cs hmunch =>
    cases h
    exact ⟨[], c, cs, [], rfl, .nil, hmunch, rfl⟩
  | case3 depth position c cs n hmunch ih =>
    obtain ⟨before, d, rest, ts, hdrop, hlaid, hnone, he⟩ := ih h
    refine ⟨c :: cs.take n ++ before, d, rest, ts, ?_, ?_, hnone, ?_⟩
    · rw [List.append_assoc, ← hdrop, List.cons_append, List.take_append_drop]
    · exact .blanks (blanks_of_munch hmunch) (by rwa [length_lexeme hmunch])
    · rwa [hshift hmunch] at he
  | case4 => cases h
  | case5 => cases h
  | case6 depth position c cs kind n hmunch t hstop e' hscan ih =>
    cases h
    obtain ⟨before, d, rest, ts, hdrop, hlaid, hnone, he⟩ := ih hscan
    refine ⟨c :: cs.take n ++ before, d, rest, t :: ts, ?_, ?_, hnone, ?_⟩
    · rw [List.append_assoc, ← hdrop, List.cons_append, List.take_append_drop]
    · exact .token (by rwa [length_lexeme hmunch])
    · rwa [hshift hmunch] at he

/-! ## Both together -/

theorem listUntil_eq_ok_iff {start : Nat} {tokens : List Token} :
    Token.listUntil text start stops = .ok (tokens, stop) ↔
      ∃ ts, scan stops 0 start (text.drop start) = .ok (ts, stop) ∧
        tokens = ts ++ [Token.endAt stop] := by
  unfold Token.listUntil
  constructor
  · intro h
    obtain ⟨⟨ts, stop'⟩, hscan, hresult⟩ := bind_eq_ok.mp h
    cases hresult
    exact ⟨ts, hscan, rfl⟩
  · rintro ⟨ts, hscan, rfl⟩
    exact bind_eq_ok.mpr ⟨_, hscan, rfl⟩

theorem listUntil_eq_error_iff {start : Nat} {e : ExprError} :
    Token.listUntil text start stops = .error e ↔
      scan stops 0 start (text.drop start) = .error e := by
  unfold Token.listUntil
  rw [bind_eq_error]
  refine or_iff_left ?_
  rintro ⟨_, -, h⟩
  cases h

/-- A token that stands in what is behind an offset stands at its position in the whole. -/
theorem prefix_drop_of_stands {start n : Nat} {t : Token} {before after : List Char}
    (h : (text.drop start).take n = before ++ (t.text.toList ++ after))
    (hposition : t.position = start + before.length) : t.text.toList <+: text.drop t.position := by
  refine ⟨after ++ (text.drop start).drop n, ?_⟩
  calc t.text.toList ++ (after ++ (text.drop start).drop n)
      = (before ++ (t.text.toList ++ after) ++ (text.drop start).drop n).drop before.length := by
        rw [List.append_assoc, List.drop_left, List.append_assoc]
    _ = text.drop t.position := by
        rw [← h, List.take_append_drop, List.drop_drop, hposition]

/-- **Scanning a tag is lossless and local.** What stands between the start of a scan and its end is
the tokens, in order, with only blanks between them, each of them at its position. If the scan has
ended at a stop token outside parentheses, then whatever is put behind that token gives the same
tokens and the same end. A scan fails at a character that begins no token, behind text that is laid
out as tokens: a quote is unterminated there, and any other character is unexpected. -/
theorem listUntil_lossless_and_local (text : List Char) (start : Nat) (stops : List String)
    (hstops : Terminators stops) :
    (∀ tokens stop, Token.listUntil text start stops = .ok (tokens, stop) →
      start ≤ stop ∧ Laid start ((text.drop start).take (stop - start)) tokens ∧
        (∀ t ∈ tokens, t.text.toList <+: text.drop t.position) ∧
        ∃ ts, tokens = ts ++ [Token.endAt stop] ∧
          (StopsBehind stops 0 ts → ∀ more,
            Token.listUntil (text.take stop ++ more) start stops = .ok (tokens, stop))) ∧
      ∀ e, Token.listUntil text start stops = .error e →
        ∃ position c ts, start ≤ position ∧ text[position]? = some c ∧
          Laid start ((text.drop start).take (position - start)) ts ∧
          munch c (text.drop (position + 1)) = none ∧
          e = if c = '"' ∨ c = '\'' then .unterminatedString position
            else .unexpectedCharacter c position := by
  constructor
  · intro tokens stop h
    obtain ⟨ts, hscan, rfl⟩ := listUntil_eq_ok_iff.mp h
    have hscanned := scanned_of_scan hscan
    have hlaid := hscanned.laid
    refine ⟨hscanned.bounds.1, hlaid, fun t ht => ?_, ts, rfl, fun hend more => ?_⟩
    · obtain ⟨before, after, hsplit, hposition⟩ := hlaid.stands t ht
      exact prefix_drop_of_stands hsplit hposition
    · refine listUntil_eq_ok_iff.mpr ⟨ts, ?_, rfl⟩
      obtain ⟨d, rest, hdrop, -, hlt⟩ := hscanned.head hend.ne_nil
      have hstart : start ≤ (text.take stop).length := by
        have hlength := congrArg List.length hdrop
        rw [List.length_drop, List.length_cons] at hlength
        rw [List.length_take]
        omega
      rw [List.drop_append_of_le_length hstart, List.drop_take]
      exact hscanned.local hstops hend more
  · intro e h
    obtain ⟨before, c, rest, ts, hsplit, hlaid, hnone, he⟩ :=
      exists_of_scan_eq_error (listUntil_eq_error_iff.mp h)
    refine ⟨start + before.length, c, ts, Nat.le_add_right _ _, ?_, ?_, ?_, he⟩
    · rw [← List.getElem?_drop, hsplit]
      simp
    · rwa [Nat.add_sub_cancel_left, hsplit, List.take_left]
    · rw [Nat.add_assoc, ← List.drop_drop, hsplit, ← List.drop_drop, List.drop_left]
      exact hnone

/-- The tokens of `(})}`, whose first brace stands in parentheses. -/
def bracedTokens : List Token :=
  [⟨.symbol, "(", 0⟩, ⟨.symbol, "\x7d", 1⟩, ⟨.symbol, ")", 2⟩, ⟨.symbol, "\x7d", 3⟩]

/-- The scan ends at the second brace, whether a letter or a fraction stands behind it. -/
theorem braced_lossless_and_local :
    Terminators ["\x7d"] ∧
      Token.listUntil "(\x7d)\x7dy".toList 0 ["\x7d"] =
        .ok (bracedTokens ++ [Token.endAt 4], 4) ∧
      Laid 0 "(\x7d)\x7d".toList (bracedTokens ++ [Token.endAt 4]) ∧
      StopsBehind ["\x7d"] 0 bracedTokens ∧
      Token.listUntil "(\x7d)\x7d.5\x7d".toList 0 ["\x7d"] =
        .ok (bracedTokens ++ [Token.endAt 4], 4) := by
  have hstops : Terminators ["\x7d"] := by decide
  have hparenthesized : Scans ["\x7d"] 0 0 0 ['(', '\x7d', ')'] ['\x7d', 'y']
      (bracedTokens.take 3) :=
    Scans.opening.append ((Scans.lexeme (lexes_symbol (.inr (.inr rfl)) _) rfl).append
      Scans.closing)
  have hbrace : munch '\x7d' ['y'] = some (.token .symbol, 0) := rfl
  have hread : Token.listUntil "(\x7d)\x7dy".toList 0 ["\x7d"] =
      .ok (bracedTokens ++ [Token.endAt 4], 4) := by
    refine listUntil_eq_ok_iff.mpr ⟨bracedTokens, hparenthesized.trans ?_, rfl⟩
    rw [scan_stop hbrace rfl]
    rfl
  have hend : StopsBehind ["\x7d"] 0 bracedTokens :=
    ⟨bracedTokens.dropLast, ⟨.symbol, "\x7d", 3⟩, rfl, rfl⟩
  obtain ⟨-, hlaid, -, ts, hts, hlocal⟩ :=
    (listUntil_lossless_and_local _ 0 _ hstops).1 _ _ hread
  obtain ⟨rfl, -⟩ := List.append_inj' hts rfl
  exact ⟨hstops, hread, hlaid, hend, hlocal hend ".5\x7d".toList⟩

end Stencil

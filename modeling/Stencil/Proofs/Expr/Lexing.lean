import Stencil.Expr.Token
import Stencil.Text.Quoted

/-!
# How lexemes are scanned

A lexeme is found at the front of a text when the text behind it does not go on with it. Numerals
and words need a boundary behind them, a `!` must not be followed by `=`; every other lexeme ends
by itself. Scanning a text that is put together from lexemes and blanks gives their tokens, one
after the other; and each token that a scan gives has the shape of its kind.

## Main definitions

* `IsNumeral` and `IsName` are the shapes of numerals and of names.
* `Lexes kind text rest` says that `text` is the lexeme in front of `rest`.
* `Scans` says that scanning a text gives some tokens and goes on behind it.
* `Token.Genuine` is a token of the shape of its kind.
* `Scanned` is a scan that has ended, step by step.

## Main results

* `lexes_quote`, `lexes_numeral` and `lexes_word` are the lexemes of literals and names.
* `Scans.append`: scanning goes on from one text to the next.
* `genuine_of_scan`: scanning gives genuine tokens.
* `Scanned.bounds`: a scan ends within the text.
-/

namespace Stencil

/-! ## Classes of characters -/

theorem exists_start_of_isDigit {c : Char} (h : isDigit c = true) :
    ∃ start ∈ digitZeros, start ≤ c.toNat ∧ c.toNat < start + 10 := by
  simp only [isDigit, digitValue?, Option.isSome_map, List.find?_isSome, Bool.and_eq_true,
    decide_eq_true_eq] at h
  exact h

theorem toNat_of_isNameStart {c : Char} (h : isNameStart c = true) :
    65 ≤ c.toNat ∧ c.toNat < 123 := by
  have hcases : (c.isUpper = true ∨ c.isLower = true) ∨ c = '_' := by
    have hname : ((c.isUpper || c.isLower) || c == '_') = true := h
    simpa only [Bool.or_eq_true, beq_iff_eq] using hname
  -- the letters lie in two ranges of code points, and the underscore between them
  rcases hcases with (h | h) | rfl
  · have hval : c.val ≥ 'A'.val ∧ c.val ≤ 'Z'.val := of_decide_eq_true h
    have hlow : 65 ≤ c.toNat := UInt32.le_iff_toNat_le.mp hval.1
    have hhigh : c.toNat ≤ 90 := UInt32.le_iff_toNat_le.mp hval.2
    omega
  · have hval : c.val ≥ 'a'.val ∧ c.val ≤ 'z'.val := by
      obtain ⟨hlow, hhigh⟩ := Bool.and_eq_true_iff.mp h
      exact ⟨of_decide_eq_true hlow, of_decide_eq_true hhigh⟩
    have hlow : 97 ≤ c.toNat := UInt32.le_iff_toNat_le.mp hval.1
    have hhigh : c.toNat ≤ 122 := UInt32.le_iff_toNat_le.mp hval.2
    omega
  · decide

/-- No digit of any script is a blank. -/
theorem isBlank_of_isDigit {c : Char} (h : isDigit c = true) : isBlank c = false := by
  have hdisjoint : ∀ start ∈ digitZeros, ∀ r ∈ blankRanges,
      start + 10 ≤ r.first ∨ r.last < start := by decide
  obtain ⟨start, hstart, hlow, hhigh⟩ := exists_start_of_isDigit h
  rw [Bool.eq_false_iff]
  intro hblank
  obtain ⟨r, hr, hfirst, hlast⟩ := CharRange.covers_iff.mp hblank
  have := hdisjoint start hstart r hr
  omega

theorem isBlank_space : ∀ c ∈ [' '], isBlank c = true :=
  List.forall_mem_singleton.mpr (by decide)

theorem isBlank_of_isNameStart {c : Char} (h : isNameStart c = true) : isBlank c = false := by
  have hdisjoint : ∀ r ∈ blankRanges, r.last < 65 ∨ 123 ≤ r.first := by decide
  obtain ⟨hlow, hhigh⟩ := toNat_of_isNameStart h
  rw [Bool.eq_false_iff]
  intro hblank
  obtain ⟨r, hr, hfirst, hlast⟩ := CharRange.covers_iff.mp hblank
  have := hdisjoint r hr
  omega

/-- What continues a name is no blank. -/
theorem isBlank_of_isNamePart {c : Char} (h : isNamePart c = true) : isBlank c = false := by
  rw [isNamePart] at h
  split at h
  · next hascii =>
    have hcases : (c.isAlpha = true ∨ c.isDigit = true) ∨ c = '_' := by
      have hname : ((c.isAlpha || c.isDigit) || c == '_') = true := h
      simpa only [Bool.or_eq_true, beq_iff_eq] using hname
    rcases hcases with (h | h) | rfl
    · exact isBlank_of_isNameStart (by simp [isNameStart, h])
    · have hval : c.val ≥ '0'.val ∧ c.val ≤ '9'.val := by
        obtain ⟨hlow, hhigh⟩ := Bool.and_eq_true_iff.mp h
        exact ⟨of_decide_eq_true hlow, of_decide_eq_true hhigh⟩
      have hlow : 48 ≤ c.toNat := UInt32.le_iff_toNat_le.mp hval.1
      have hdisjoint : ∀ r ∈ blankRanges, r.last < 48 ∨ 0x80 ≤ r.first := by decide
      rw [Bool.eq_false_iff]
      intro hblank
      obtain ⟨r, hr, hfirst, hlast⟩ := CharRange.covers_iff.mp hblank
      have := hdisjoint r hr
      omega
    · decide
  · have hdisjoint : ∀ r ∈ blankRanges, ∀ s ∈ alphanumericRanges,
        s.last < r.first ∨ r.last < s.first := by decide +kernel
    rw [Bool.eq_false_iff]
    intro hblank
    obtain ⟨r, hr, hfirst, hlast⟩ := CharRange.covers_iff.mp hblank
    obtain ⟨s, hs, hfirst', hlast'⟩ := CharRange.covers_iff.mp h
    have := hdisjoint r hr s hs
    omega

theorem isDigit_of_isNameStart {c : Char} (h : isNameStart c = true) : isDigit c = false := by
  have hdisjoint : ∀ start ∈ digitZeros, start + 10 ≤ 65 ∨ 123 ≤ start := by decide
  obtain ⟨hlow, hhigh⟩ := toNat_of_isNameStart h
  rw [Bool.eq_false_iff]
  intro hdigit
  obtain ⟨start, hstart, hfirst, hlast⟩ := exists_start_of_isDigit hdigit
  have := hdisjoint start hstart
  omega

/-! ## Runs of characters -/

section

variable {p : Char → Bool} {body rest : List Char}

/-- A run ends where a character of another class follows. -/
theorem takeWhile_run (hbody : ∀ c ∈ body, p c = true) (hrest : ∀ c ∈ rest.head?, p c = false) :
    (body ++ rest).takeWhile p = body := by
  rw [List.takeWhile_append_of_pos hbody]
  cases rest with
  | nil => simp
  | cons c rest => simp [hrest c rfl]

theorem dropWhile_run (hbody : ∀ c ∈ body, p c = true) (hrest : ∀ c ∈ rest.head?, p c = false) :
    (body ++ rest).dropWhile p = rest := by
  rw [List.dropWhile_append_of_pos hbody]
  cases rest with
  | nil => rfl
  | cons c rest => simp [hrest c rfl]

end

/-! ## Lexemes -/

/-- A numeral: digits, and perhaps a point with digits behind it. -/
inductive IsNumeral : List Char → Prop
  | whole {c : Char} {digits : List Char} (h : ∀ d ∈ c :: digits, isDigit d = true) :
      IsNumeral (c :: digits)
  | fraction {c f : Char} {digits fraction : List Char}
      (h : ∀ d ∈ c :: digits, isDigit d = true) (hf : ∀ d ∈ f :: fraction, isDigit d = true) :
      IsNumeral (c :: (digits ++ '.' :: f :: fraction))

/-- A word of name characters, perhaps a keyword. -/
inductive IsWord : List Char → Prop
  | mk {c : Char} {parts : List Char} (hc : isNameStart c = true)
      (hparts : ∀ d ∈ parts, isNamePart d = true) : IsWord (c :: parts)

instance decidableIsWord : (text : List Char) → Decidable (IsWord text)
  | [] => .isFalse nofun
  | c :: parts =>
    decidable_of_iff (isNameStart c = true ∧ parts.all isNamePart = true)
      ⟨fun ⟨hc, hparts⟩ => .mk hc (List.all_eq_true.mp hparts),
        fun ⟨hc, hparts⟩ => ⟨hc, List.all_eq_true.mpr hparts⟩⟩

/-- A name: a word that is no keyword. -/
def IsName (text : List Char) : Prop := IsWord text ∧ isKeyword text = false

instance (text : List Char) : Decidable (IsName text) :=
  inferInstanceAs (Decidable (IsWord text ∧ isKeyword text = false))

/-- The text that follows goes on neither with a word nor with a numeral. -/
def Boundary (rest : List Char) : Prop :=
  ∀ c ∈ rest.head?, isNamePart c = false ∧ isDigit c = false ∧ c ≠ '.'

theorem boundary_nil : Boundary [] := by simp [Boundary]

theorem boundary_cons {c : Char} {rest : List Char}
    (h : isNamePart c = false ∧ isDigit c = false ∧ c ≠ '.') : Boundary (c :: rest) := by
  intro d hd
  obtain rfl : c = d := by simpa using hd
  exact h

/-- A blank ends words and numerals, whatever follows it. -/
theorem boundary_blank {c : Char} (h : isBlank c = true) (rest : List Char) :
    Boundary (c :: rest) := by
  refine boundary_cons ⟨?_, ?_, ?_⟩
  · rw [Bool.eq_false_iff]
    intro hname
    simp [isBlank_of_isNamePart hname] at h
  · rw [Bool.eq_false_iff]
    intro hdigit
    simp [isBlank_of_isDigit hdigit] at h
  · rintro rfl
    exact absurd h (by decide)

theorem boundary_gap {blanks : List Char} (hne : blanks ≠ [])
    (hblanks : ∀ c ∈ blanks, isBlank c = true) (rest : List Char) : Boundary (blanks ++ rest) := by
  obtain ⟨c, cs, rfl⟩ := List.exists_cons_of_ne_nil hne
  exact boundary_blank (hblanks c List.mem_cons_self) (cs ++ rest)

theorem boundary_blanks {blanks rest : List Char} (hblanks : ∀ c ∈ blanks, isBlank c = true)
    (hrest : Boundary rest) : Boundary (blanks ++ rest) := by
  cases blanks with
  | nil => exact hrest
  | cons c blanks => exact boundary_gap (List.cons_ne_nil _ _) hblanks rest

/-- The text is the lexeme of the given kind in front of what follows. -/
def Lexes (kind : TokenKind) (text rest : List Char) : Prop :=
  ∃ c cs, text = c :: cs ∧ munch c (cs ++ rest) = some (.token kind, cs.length)

namespace Quoted

theorem closeQuote_escape (c : Char) (rest : List Char) :
    closeQuote '"' ('\\' :: c :: rest) = (closeQuote '"' rest).map (· + 2) := by
  rw [closeQuote]

theorem closeQuote_plain {c : Char} (hescape : c ≠ '\\') (hmark : c ≠ '"') (rest : List Char) :
    closeQuote '"' (c :: rest) = (closeQuote '"' rest).map (· + 1) := by
  rw [closeQuote, if_neg hmark]
  all_goals
    intros
    exact hescape ‹_›

/-- The digits of an escape are plain characters. -/
theorem hexDigit_plain : ∀ n < 16, hexDigit n ≠ '\\' ∧ hexDigit n ≠ '"' := by
  decide

/-- The search for the closing quote passes over what a character was written as. -/
theorem closeQuote_encodeChar (c : Char) (rest : List Char) :
    closeQuote '"' (encodeChar c ++ rest) =
      (closeQuote '"' rest).map (· + (encodeChar c).length) := by
  -- the five short escapes, the escape by digits, and the characters that stand for themselves
  unfold encodeChar
  split
  · exact closeQuote_escape _ rest
  split
  · exact closeQuote_escape _ rest
  split
  · exact closeQuote_escape _ rest
  split
  · exact closeQuote_escape _ rest
  split
  · exact closeQuote_escape _ rest
  split
  · next h =>
    obtain ⟨hhigh, hhigh'⟩ := hexDigit_plain (c.toNat / 16) (by omega)
    obtain ⟨hlow, hlow'⟩ := hexDigit_plain (c.toNat % 16) (by omega)
    simp only [List.cons_append, List.nil_append, closeQuote_escape,
      closeQuote_plain (c := '0') (by decide) (by decide), closeQuote_plain hhigh hhigh',
      closeQuote_plain hlow hlow', Option.map_map]
    rfl
  · next hquote hescape _ _ _ _ => exact closeQuote_plain hescape hquote rest

/-- The body of a literal is closed by the quote behind it. -/
theorem closeQuote_encode (s rest : List Char) :
    closeQuote '"' (encode s ++ '"' :: rest) = some ((encode s).length + 1) := by
  induction s with
  | nil => rfl
  | cons c s ih =>
    rw [encode, List.flatMap_cons, List.append_assoc, closeQuote_encodeChar]
    change (closeQuote '"' (encode s ++ '"' :: rest)).map _ = _
    rw [ih, List.length_append]
    change some ((encode s).length + 1 + _) = some (_ + (encode s).length + 1)
    congr 1
    omega

end Quoted

/-- A quoted literal is one lexeme, whatever follows. -/
theorem lexes_quote (s rest : List Char) :
    Lexes .string ('"' :: (Quoted.encode s ++ ['"'])) rest := by
  refine ⟨'"', Quoted.encode s ++ ['"'], rfl, ?_⟩
  rw [munch, if_neg (by decide), if_pos (Or.inl rfl), List.append_assoc, List.singleton_append,
    Quoted.closeQuote_encode]
  simp

theorem ne_quote_of_isDigit {c : Char} (h : isDigit c = true) : ¬(c = '"' ∨ c = '\'') := by
  rintro (rfl | rfl) <;> exact absurd h (by decide)

theorem ne_quote_of_isNameStart {c : Char} (h : isNameStart c = true) :
    ¬(c = '"' ∨ c = '\'') := by
  rintro (rfl | rfl) <;> exact absurd h (by decide)

/-- What begins with a digit is a numeral. -/
theorem munch_digit {c : Char} (h : isDigit c = true) (rest : List Char) :
    munch c rest = some (.token .number, numeralLength rest) := by
  rw [munch, if_neg (by simp [isBlank_of_isDigit h]), if_neg (ne_quote_of_isDigit h), if_pos h]

/-- What begins with a letter or an underscore is a word. -/
theorem munch_nameStart {c : Char} (h : isNameStart c = true) (rest : List Char) :
    munch c rest =
      some (.token
        (if isKeyword (c :: rest.takeWhile isNamePart) then .keyword else .identifier),
        (rest.takeWhile isNamePart).length) := by
  rw [munch, if_neg (by simp [isBlank_of_isNameStart h]), if_neg (ne_quote_of_isNameStart h),
    if_neg (by simp [isDigit_of_isNameStart h]), if_pos h]

theorem lexes_numeral {text rest : List Char} (h : IsNumeral text) (hrest : Boundary rest) :
    Lexes .number text rest := by
  cases h with
  | @whole c digits h =>
    refine ⟨c, digits, rfl, ?_⟩
    have hdigits : ∀ d ∈ digits, isDigit d = true := fun d hd => h d (List.mem_cons_of_mem c hd)
    have hstop : ∀ d ∈ rest.head?, isDigit d = false := fun d hd => (hrest d hd).2.1
    rw [munch_digit (h c List.mem_cons_self), numeralLength, takeWhile_run hdigits hstop,
      dropWhile_run hdigits hstop]
    -- no point follows, so there is no fraction
    split
    · next r => exact absurd rfl (hrest '.' rfl).2.2
    · simp
  | @fraction c f digits fraction h hf =>
    refine ⟨c, digits ++ '.' :: f :: fraction, rfl, ?_⟩
    have hdigits : ∀ d ∈ digits, isDigit d = true := fun d hd => h d (List.mem_cons_of_mem c hd)
    have hstop : ∀ d ∈ rest.head?, isDigit d = false := fun d hd => (hrest d hd).2.1
    -- the point ends the digits in front of it
    have hpoint : ∀ d ∈ ('.' :: f :: fraction ++ rest).head?, isDigit d = false := by
      simp only [List.cons_append, List.head?_cons, Option.mem_some_iff]
      rintro d rfl
      decide
    rw [munch_digit (h c List.mem_cons_self), numeralLength, List.append_assoc,
      takeWhile_run hdigits hpoint, dropWhile_run hdigits hpoint]
    simp only [List.cons_append]
    rw [← List.cons_append, takeWhile_run hf hstop]
    simp
    omega

theorem lexes_word {text rest : List Char} (h : IsWord text) (hrest : Boundary rest) :
    Lexes (if isKeyword text then .keyword else .identifier) text rest := by
  obtain ⟨hc, hparts⟩ := h
  refine ⟨_, _, rfl, ?_⟩
  rw [munch_nameStart hc, takeWhile_run hparts fun d hd => (hrest d hd).1]

theorem lexes_name {text rest : List Char} (h : IsName text) (hrest : Boundary rest) :
    Lexes .identifier text rest := by
  simpa [h.2] using lexes_word h.1 hrest

theorem lexes_keyword (value : Bool) {rest : List Char} (hrest : Boundary rest) :
    Lexes .keyword (if value then "true" else "false").toList rest := by
  have hwords : IsWord "false".toList ∧ IsWord "true".toList := by decide
  cases value
  · exact lexes_word hwords.1 hrest
  · exact lexes_word hwords.2 hrest

/-! ## Scanning text that is put together from lexemes -/

/-- Scanning the text, with what follows behind it, gives the tokens and goes on behind the text;
the depths are those before and behind it. -/
def Scans (stops : List String) (depth depth' position : Nat) (text rest : List Char)
    (ts : List Token) : Prop :=
  scan stops depth position (text ++ rest) =
    (scan stops depth' (position + text.length) rest).map fun r => (ts ++ r.1, r.2)

/-- The marks that may end the inside of a tag or an interpolation. -/
def Terminators (stops : List String) : Prop := ∀ s ∈ stops, s ∈ ["\x7d", ">", "/>"]

instance (stops : List String) : Decidable (Terminators stops) :=
  inferInstanceAs (Decidable (∀ s ∈ stops, s ∈ ["\x7d", ">", "/>"]))

/-- A character that begins neither a terminator nor a parenthesis. -/
def Inner (c : Char) : Prop := c ∉ ['\x7d', '>', '/', '(', ')']

instance (c : Char) : Decidable (Inner c) :=
  inferInstanceAs (Decidable (c ∉ ['\x7d', '>', '/', '(', ')']))

/-- A class of characters that holds none of those that begin terminators and parentheses. -/
theorem inner_of_class {p : Char → Bool}
    (hp : ['\x7d', '>', '/', '(', ')'].all (fun d => !p d) = true) {c : Char} (h : p c = true) :
    Inner c := by
  intro hmem
  have hnot := List.all_eq_true.mp hp c hmem
  rw [h] at hnot
  cases hnot

theorem inner_of_isDigit {c : Char} (h : isDigit c = true) : Inner c :=
  inner_of_class (p := isDigit) (by decide) h

theorem inner_of_isNameStart {c : Char} (h : isNameStart c = true) : Inner c :=
  inner_of_class (p := isNameStart) (by decide) h

theorem Inner.head {c : Char} (h : Inner c) (cs : List Char) : ∀ d ∈ (c :: cs).head?, Inner d := by
  intro d hd
  cases hd
  exact h

theorem IsNumeral.inner {text : List Char} (h : IsNumeral text) : ∀ c ∈ text.head?, Inner c := by
  cases h with
  | whole h => exact (inner_of_isDigit (h _ List.mem_cons_self)).head _
  | fraction h _ => exact (inner_of_isDigit (h _ List.mem_cons_self)).head _

theorem IsWord.inner {text : List Char} (h : IsWord text) : ∀ c ∈ text.head?, Inner c := by
  obtain ⟨hstart, -⟩ := h
  exact (inner_of_isNameStart hstart).head _

theorem ofList_cons_ne {c d : Char} (h : c ≠ d) (cs ds : List Char) :
    String.ofList (c :: cs) ≠ String.ofList (d :: ds) := by
  intro heq
  exact h (List.cons.inj (String.ofList_injective heq)).1

section

variable {stops : List String} {c : Char} {cs : List Char}

theorem stopsAt_of_inner (hstops : Terminators stops) (hc : Inner c) (depth : Nat) :
    stopsAt stops depth (String.ofList (c :: cs)) = false := by
  have hnot : ¬String.ofList (c :: cs) ∈ stops := by
    intro hmem
    -- each terminator begins with a character that this one is not
    have hc' : c ≠ '\x7d' ∧ c ≠ '>' ∧ c ≠ '/' := by
      refine ⟨?_, ?_, ?_⟩ <;> (rintro rfl; exact hc (by decide))
    rcases List.mem_cons.mp (hstops _ hmem) with h | h
    · exact ofList_cons_ne hc'.1 _ [] h
    rcases List.mem_cons.mp h with h | h
    · exact ofList_cons_ne hc'.2.1 _ [] h
    · exact ofList_cons_ne hc'.2.2 _ ['>'] (List.mem_singleton.mp h)
  have hcontains : stops.contains (String.ofList (c :: cs)) = false := by
    rw [List.contains_eq_mem]
    exact decide_eq_false hnot
  rw [stopsAt, hcontains, Bool.and_false]

theorem depthAfter_of_inner (hc : Inner c) (depth : Nat) :
    depthAfter depth (String.ofList (c :: cs)) = depth := by
  have hopen : c ≠ '(' := by rintro rfl; exact hc (by decide)
  have hclose : c ≠ ')' := by rintro rfl; exact hc (by decide)
  rw [depthAfter, if_neg (ofList_cons_ne hopen _ []),
    if_neg (ofList_cons_ne hclose _ [])]

end

namespace Scans

variable {stops : List String} {depth depth' depth'' position : Nat} {rest : List Char}

theorem nil : Scans stops depth depth position [] rest [] := by
  unfold Scans
  change scan stops depth position rest = (scan stops depth position rest).map _
  cases scan stops depth position rest <;> rfl

/-- Scanning goes on from one text to the next. -/
theorem append {a b : List Char} {ts us : List Token}
    (ha : Scans stops depth depth' position a (b ++ rest) ts)
    (hb : Scans stops depth' depth'' (position + a.length) b rest us) :
    Scans stops depth depth'' position (a ++ b) rest (ts ++ us) := by
  unfold Scans at *
  rw [List.append_assoc, ha, hb, List.length_append, Nat.add_assoc]
  cases scan stops depth'' (position + (a.length + b.length)) rest <;> simp [Except.map]

/-- Blanks in front of something else are passed over. -/
theorem blanks {text : List Char} (htext : ∀ c ∈ text, isBlank c = true)
    (hrest : ∀ c ∈ rest.head?, isBlank c = false) :
    Scans stops depth depth position text rest [] := by
  cases text with
  | nil => exact nil
  | cons c cs =>
    have hcs : ∀ d ∈ cs, isBlank d = true := fun d hd => htext d (List.mem_cons_of_mem c hd)
    have hmunch : munch c (cs ++ rest) = some (.blank, cs.length) := by
      rw [munch, if_pos (htext c List.mem_cons_self), takeWhile_run hcs hrest]
    unfold Scans
    rw [List.cons_append, scan_blank hmunch, List.drop_left, List.length_cons]
    cases scan stops depth (position + (cs.length + 1)) rest <;> rfl

/-- A blank in front of something else is passed over. -/
theorem blank (hrest : ∀ c ∈ rest.head?, isBlank c = false) :
    Scans stops depth depth position [' '] rest [] :=
  blanks isBlank_space hrest

/-- A lexeme that does not end the scan gives its token. -/
theorem lexeme {kind : TokenKind} {text : List Char} (h : Lexes kind text rest)
    (hstop : stopsAt stops depth (String.ofList text) = false) :
    Scans stops depth (depthAfter depth (String.ofList text)) position text rest
      [⟨kind, String.ofList text, position⟩] := by
  obtain ⟨c, cs, rfl, hmunch⟩ := h
  have htake : (cs ++ rest).take cs.length = cs := List.take_left' rfl
  have hdrop : (cs ++ rest).drop cs.length = rest := List.drop_left' rfl
  unfold Scans
  rw [List.cons_append, scan_token hmunch (by rwa [htake]), htake, hdrop, List.length_cons]
  rfl

/-- A lexeme that begins like no terminator and no parenthesis gives its token at any depth. -/
theorem inner {kind : TokenKind} {text : List Char} (hstops : Terminators stops)
    (h : Lexes kind text rest) (htext : ∀ c ∈ text.head?, Inner c) :
    Scans stops depth depth position text rest [⟨kind, String.ofList text, position⟩] := by
  obtain ⟨c, cs, rfl, -⟩ := id h
  have hc : Inner c := htext c rfl
  have hscan : Scans stops depth _ position (c :: cs) rest _ :=
    lexeme h (stopsAt_of_inner hstops hc depth)
  rwa [depthAfter_of_inner hc] at hscan

end Scans

/-! ## The shapes of tokens -/

/-- A token of a text: numerals and names have the shape of their kind, and the token that marks
the end is none. -/
def Token.Genuine (t : Token) : Prop :=
  match t.kind with
  | .number => IsNumeral t.text.toList
  | .identifier => IsName t.text.toList
  | .eof => False
  | _ => True

theorem Token.Genuine.kind_ne_eof {t : Token} (h : t.Genuine) : t.kind ≠ .eof := by
  intro heq
  simp [Genuine, heq] at h

theorem mem_takeWhile (p : Char → Bool) (cs : List Char) : ∀ d ∈ cs.takeWhile p, p d = true :=
  List.all_eq_true.mp List.all_takeWhile

theorem take_takeWhile_length (p : Char → Bool) (cs : List Char) :
    cs.take (cs.takeWhile p).length = cs.takeWhile p :=
  (List.prefix_iff_eq_take.mp (List.takeWhile_prefix p)).symm

/-- What a numeral takes of the text has the shape of a numeral. -/
theorem isNumeral_take {c : Char} (hc : isDigit c = true) (rest : List Char) :
    IsNumeral (c :: rest.take (numeralLength rest)) := by
  have hwhole : ∀ d ∈ c :: rest.takeWhile isDigit, isDigit d = true := by
    intro d hd
    rcases List.mem_cons.mp hd with rfl | hd
    · exact hc
    · exact mem_takeWhile _ _ d hd
  rw [numeralLength]
  split
  · next r hr =>
    have hrest : rest = rest.takeWhile isDigit ++ '.' :: r := by
      rw [← hr, List.takeWhile_append_dropWhile]
    -- a point with no digit behind it does not belong to the numeral
    split
    · rw [take_takeWhile_length]
      exact .whole hwhole
    · next hfraction =>
      obtain ⟨f, fraction, hf⟩ := List.exists_cons_of_ne_nil
        (l := r.takeWhile isDigit) (by simpa using hfraction)
      have htake : rest.take ((rest.takeWhile isDigit).length + 1 + (r.takeWhile isDigit).length) =
          rest.takeWhile isDigit ++ '.' :: f :: fraction := by
        calc rest.take _
            = (rest.takeWhile isDigit ++ '.' :: r).take _ := by rw [← hrest]
          _ = _ := by
            rw [Nat.add_assoc, List.take_length_add_append, Nat.add_comm 1, List.take_succ_cons,
              take_takeWhile_length, hf]
      rw [htake]
      exact .fraction hwhole fun d hd => mem_takeWhile _ _ d (hf ▸ hd)
  · rw [if_pos List.isEmpty_nil, take_takeWhile_length]
    exact .whole hwhole

/-- A lexeme that begins with no blank, quote, digit or letter is a sign, which lies within the
text. -/
theorem munch_sign {c : Char} {cs : List Char} {lexeme : Lexeme} {n : Nat}
    (hblank : ¬isBlank c = true) (hquote : ¬(c = '"' ∨ c = '\'')) (hdigit : ¬isDigit c = true)
    (hname : ¬isNameStart c = true) (h : munch c cs = some (lexeme, n)) :
    lexeme ∈ [.token .tagEnd, .token .operator, .token .symbol] ∧ n ≤ cs.length := by
  have hlength : ∀ second, cs.head? = some second → 1 ≤ cs.length := by
    intro second hhead
    cases cs with
    | nil => cases hhead
    | cons d ds => simp
  -- an operator takes a second character only if it is there
  have hoperator : ∀ second, operatorLength second cs ≤ cs.length := by
    intro second
    rw [operatorLength]
    split
    · next hhead => exact hlength second hhead
    · exact Nat.zero_le _
  rw [munch, if_neg hblank, if_neg hquote, if_neg hdigit, if_neg hname] at h
  split at h
  · split at h
    · next hhead =>
      cases h
      exact ⟨by decide, hlength _ hhead⟩
    · cases h
  split at h
  · cases h
    exact ⟨by decide, Nat.zero_le _⟩
  split at h
  · cases h
    exact ⟨by decide, hoperator _⟩
  split at h
  · cases h
    exact ⟨by decide, Nat.zero_le _⟩
  split at h
  · split at h
    · next hhead =>
      cases h
      exact ⟨by decide, hlength _ hhead⟩
    · cases h
  split at h
  · cases h
    exact ⟨by decide, Nat.zero_le _⟩
  · cases h

/-- Each lexeme has the shape of its kind. -/
theorem genuine_of_munch {c : Char} {cs : List Char} {kind : TokenKind} {n : Nat}
    (h : munch c cs = some (.token kind, n)) (position : Nat) :
    Token.Genuine ⟨kind, String.ofList (c :: cs.take n), position⟩ := by
  by_cases hdigit : isDigit c = true
  · rw [munch_digit hdigit] at h
    cases h
    simpa [Token.Genuine] using isNumeral_take hdigit cs
  by_cases hname : isNameStart c = true
  · rw [munch_nameStart hname] at h
    cases h
    rw [take_takeWhile_length]
    by_cases hkeyword : isKeyword (c :: cs.takeWhile isNamePart) = true
    · simp [Token.Genuine, hkeyword]
    · simpa [Token.Genuine, hkeyword, IsName] using IsWord.mk hname (mem_takeWhile isNamePart cs)
  -- no other character begins a numeral or a word
  by_cases hblank : isBlank c = true
  · rw [munch, if_pos hblank] at h
    cases h
  by_cases hquote : c = '"' ∨ c = '\''
  · rw [munch, if_neg hblank, if_pos hquote] at h
    obtain ⟨_, -, heq⟩ := Option.map_eq_some_iff.mp h
    cases heq
    trivial
  have hkind := (munch_sign hblank hquote hdigit hname h).1
  simp only [List.mem_cons, Lexeme.token.injEq, List.not_mem_nil, or_false] at hkind
  rcases hkind with rfl | rfl | rfl <;> trivial

/-! ## What a scan has read -/

/-- A scan of the text that has ended: each step passes over blanks, ends at a stop token, or takes
any other token and goes on behind it. -/
inductive Scanned (stops : List String) : Nat → Nat → List Char → List Token → Nat → Prop
  | nil {depth position : Nat} : Scanned stops depth position [] [] position
  | blank {depth position stop n : Nat} {c : Char} {cs : List Char} {ts : List Token}
      (h : munch c cs = some (.blank, n))
      (hnext : Scanned stops depth (position + (n + 1)) (cs.drop n) ts stop) :
      Scanned stops depth position (c :: cs) ts stop
  | last {depth position n : Nat} {c : Char} {cs : List Char} {kind : TokenKind}
      (h : munch c cs = some (.token kind, n))
      (hstop : stopsAt stops depth (String.ofList (c :: cs.take n)) = true) :
      Scanned stops depth position (c :: cs) [⟨kind, String.ofList (c :: cs.take n), position⟩]
        (position + (n + 1))
  | token {depth position stop n : Nat} {c : Char} {cs : List Char} {kind : TokenKind}
      {ts : List Token} (h : munch c cs = some (.token kind, n))
      (hstop : stopsAt stops depth (String.ofList (c :: cs.take n)) = false)
      (hnext : Scanned stops (depthAfter depth (String.ofList (c :: cs.take n)))
        (position + (n + 1)) (cs.drop n) ts stop) :
      Scanned stops depth position (c :: cs)
        (⟨kind, String.ofList (c :: cs.take n), position⟩ :: ts) stop

variable {stops : List String} {depth position stop : Nat} {text : List Char} {ts : List Token}

theorem scanned_of_scan (h : scan stops depth position text = .ok (ts, stop)) :
    Scanned stops depth position text ts stop := by
  -- on the length of what is left: a lexeme may take any number of characters
  induction hn : text.length using Nat.strongRecOn generalizing depth position text ts with
  | _ n ih =>
    cases text with
    | nil =>
      rw [scan_nil] at h
      cases h
      exact .nil
    | cons c cs =>
      have hshorter : ∀ k, (cs.drop k).length < n := by
        intro k
        rw [← hn, List.length_drop, List.length_cons]
        omega
      rw [scan] at h
      split at h
      · cases h
      · next k hmunch => exact .blank hmunch (ih _ (hshorter _) h rfl)
      · next kind k hmunch =>
        simp only at h
        split at h
        · next hstop =>
          cases h
          exact .last hmunch hstop
        · next hstop =>
          split at h
          · next ts' stop' hscan =>
            cases h
            exact .token hmunch (Bool.not_eq_true _ ▸ hstop) (ih _ (hshorter _) hscan rfl)
          · cases h

/-- What the tokens of all lexemes have, the tokens of a scan have. -/
theorem Scanned.forall_mem {P : Token → Prop}
    (hP : ∀ {c cs kind n} position, munch c cs = some (.token kind, n) →
      P ⟨kind, String.ofList (c :: cs.take n), position⟩)
    (h : Scanned stops depth position text ts stop) : ∀ t ∈ ts, P t := by
  induction h with
  | nil => exact List.forall_mem_nil _
  | blank _ _ ih => exact ih
  | last hmunch => exact List.forall_mem_singleton.mpr (hP _ hmunch)
  | token hmunch _ _ ih => exact List.forall_mem_cons.mpr ⟨hP _ hmunch, ih⟩

theorem Scanned.genuine (h : Scanned stops depth position text ts stop) : ∀ t ∈ ts, t.Genuine :=
  h.forall_mem fun position hmunch => genuine_of_munch hmunch position

/-- Scanning gives genuine tokens. -/
theorem genuine_of_scan (h : scan stops depth position text = .ok (ts, stop)) :
    ∀ t ∈ ts, t.Genuine :=
  (scanned_of_scan h).genuine

theorem length_takeWhile_le (p : Char → Bool) (cs : List Char) :
    (cs.takeWhile p).length ≤ cs.length :=
  (List.takeWhile_prefix p).length_le

theorem closeQuote_le {mark : Char} {cs : List Char} {n : Nat} (h : closeQuote mark cs = some n) :
    n ≤ cs.length := by
  fun_induction closeQuote mark cs generalizing n with
  | case1 => cases h
  | case2 => cases h
  | case3 c rest ih =>
    -- an escape hides the character behind it
    obtain ⟨m, hm, rfl⟩ := Option.map_eq_some_iff.mp h
    have := ih hm
    simp only [List.length_cons]
    omega
  | case4 rest =>
    cases h
    simp
  | case5 c rest _ _ _ ih =>
    obtain ⟨m, hm, rfl⟩ := Option.map_eq_some_iff.mp h
    have := ih hm
    simp only [List.length_cons]
    omega

theorem numeralLength_le (cs : List Char) : numeralLength cs ≤ cs.length := by
  have hwhole : (cs.takeWhile isDigit).length + (cs.dropWhile isDigit).length = cs.length := by
    rw [← List.length_append, List.takeWhile_append_dropWhile]
  rw [numeralLength]
  split
  · next r hr =>
    have hfraction := length_takeWhile_le isDigit r
    rw [hr, List.length_cons] at hwhole
    split <;> omega
  · simp only [List.isEmpty_nil, if_true]
    omega

/-- A lexeme lies within the text. -/
theorem munch_le {c : Char} {cs : List Char} {lexeme : Lexeme} {n : Nat}
    (h : munch c cs = some (lexeme, n)) : n ≤ cs.length := by
  by_cases hblank : isBlank c = true
  · rw [munch, if_pos hblank] at h
    cases h
    exact length_takeWhile_le _ _
  by_cases hquote : c = '"' ∨ c = '\''
  · rw [munch, if_neg hblank, if_pos hquote] at h
    obtain ⟨_, hclose, heq⟩ := Option.map_eq_some_iff.mp h
    cases heq
    exact closeQuote_le hclose
  by_cases hdigit : isDigit c = true
  · rw [munch_digit hdigit] at h
    cases h
    exact numeralLength_le cs
  by_cases hname : isNameStart c = true
  · rw [munch_nameStart hname] at h
    cases h
    exact length_takeWhile_le _ _
  · exact (munch_sign hblank hquote hdigit hname h).2

/-- A scan ends within the text. -/
theorem Scanned.bounds (h : Scanned stops depth position text ts stop) :
    position ≤ stop ∧ stop ≤ position + text.length := by
  induction h with
  | nil => simp
  | blank hmunch _ ih =>
    have hlength := munch_le hmunch
    rw [List.length_drop] at ih
    rw [List.length_cons]
    omega
  | last hmunch =>
    have hlength := munch_le hmunch
    rw [List.length_cons]
    omega
  | token hmunch _ _ ih =>
    have hlength := munch_le hmunch
    rw [List.length_drop] at ih
    rw [List.length_cons]
    omega

end Stencil

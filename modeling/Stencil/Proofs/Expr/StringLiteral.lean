import Stencil.Proofs.Expr.RoundTrip

/-!
# String literals

Three definitions have to fit for a text to come back from the literal that writes it: how its
characters are escaped, where a scan finds the closing quote, and how escapes are read. The scan
takes a backslash along with the character behind it, whatever that is, while reading tells
escapes of two characters from those of six. Yet reading a body never comes to a backslash with
nothing behind it.

## Main definitions

* `Quoted.front?` reads the character at the front of a body.
* `Quoted.Meets` says that the reading of a body comes to a place in it.
* `Quoted.Paired` are the bodies in which each backslash takes a character along.
* `Token.Closed` are the tokens whose text is such a body between two equal quotes.

## Main results

* `Quoted.Meets.decode_eq`: what is met in a body is what is still to be read of it.
* `Quoted.paired_of_closeQuote`: the body in front of a closing quote is paired.
* `closed_of_scan`: a scan gives no other literals.
* `literals_lossless`: a quoted text is one token and reads back, and no literal has a loose
  backslash.
-/

namespace Stencil

namespace Quoted

/-! ## Reading a body character by character -/

/-- The character that the front of a body stands for, and what is left of the body behind it. -/
def front? : List Char → Option (Char × List Char)
  | [] => none
  | '\\' :: 'x' :: a :: b :: c :: d :: rest =>
    match hexChar? a b c d with
    | some ch => some (ch, rest)
    | none => some ('x', a :: b :: c :: d :: rest)
  | '\\' :: c :: rest => some (escaped c, rest)
  | c :: rest => some (c, rest)

/-- A body is read by reading its front and then what is left. The front is an escape of six
characters, or one of two, or a character as it is, which is no backslash unless it is the last. -/
theorem front?_cases {s rest : List Char} {ch : Char} (h : front? s = some (ch, rest)) :
    decode s = ch :: decode rest ∧
      ((∃ a b c d, s = '\\' :: 'x' :: a :: b :: c :: d :: rest ∧ hexChar? a b c d = some ch) ∨
        (∃ c, s = '\\' :: c :: rest) ∨ s = ch :: rest ∧ (ch = '\\' → rest = [])) := by
  fun_cases front? s with
  | case1 => simp [front?] at h
  | case2 a b c d tail ch hhex =>
    simp only [front?, hhex] at h
    cases h
    exact ⟨decode_hex hhex rest, .inl ⟨a, b, c, d, rfl, hhex⟩⟩
  | case3 a b c d tail hhex =>
    simp only [front?, hhex] at h
    cases h
    exact ⟨by rw [decode, hhex], .inr (.inl ⟨'x', rfl⟩)⟩
  | case4 c tail hnot =>
    rw [front?] at h
    · cases h
      exact ⟨by rw [decode]; exact hnot, .inr (.inl ⟨c, rfl⟩)⟩
    · exact hnot
  | case5 c tail hlong hplain =>
    rw [front?] at h
    · cases h
      refine ⟨by rw [decode] <;> assumption, .inr (.inr ⟨rfl, ?_⟩)⟩
      rintro rfl
      cases rest with
      | nil => rfl
      | cons d tail => exact (hplain d tail rfl rfl).elim
    all_goals assumption

/-- The places that the reading of a body comes to: its beginning, and what the reading of a
character leaves. -/
inductive Meets (body : List Char) : List Char → Prop
  | start : Meets body body
  | step {s rest : List Char} {c : Char} (h : Meets body s) (hfront : front? s = some (c, rest)) :
      Meets body rest

/-- What is met in a body is read last. -/
theorem Meets.decode_eq {body rest : List Char} (h : Meets body rest) :
    ∃ read, decode body = read ++ decode rest := by
  induction h with
  | start => exact ⟨[], rfl⟩
  | @step s rest c _ hfront ih =>
    obtain ⟨read, hread⟩ := ih
    refine ⟨read ++ [c], ?_⟩
    rw [hread, (front?_cases hfront).1, List.append_assoc, List.singleton_append]

/-! ## Bodies of paired backslashes -/

/-- The bodies in which each backslash takes the character behind it along. -/
inductive Paired : List Char → Prop
  | nil : Paired []
  | plain {c : Char} {rest : List Char} (hc : c ≠ '\\') (h : Paired rest) : Paired (c :: rest)
  | escape {c : Char} {rest : List Char} (h : Paired rest) : Paired ('\\' :: c :: rest)

namespace Paired

theorem of_plain {c : Char} {rest : List Char} (hc : c ≠ '\\') (h : Paired (c :: rest)) :
    Paired rest := by
  cases h with
  | plain _ h => exact h
  | escape _ => exact absurd rfl hc

theorem of_escape {c : Char} {rest : List Char} (h : Paired ('\\' :: c :: rest)) :
    Paired rest := by
  cases h with
  | plain hc _ => exact absurd rfl hc
  | escape h => exact h

/-- A paired body does not consist of a backslash. -/
theorem ne_backslash {body : List Char} (h : Paired body) : body ≠ ['\\'] := by
  rintro rfl
  cases h with
  | plain hc _ => exact hc rfl

end Paired

/-- No digit of an escape is a backslash. -/
theorem ne_backslash_of_hexChar? {a b c d ch : Char} (h : hexChar? a b c d = some ch) :
    a ≠ '\\' ∧ b ≠ '\\' ∧ c ≠ '\\' ∧ d ≠ '\\' := by
  have hnone : hexValue? '\\' = none := by decide
  refine ⟨?_, ?_, ?_, ?_⟩ <;> rintro rfl <;> simp [hexChar?, hnone] at h

/-- Reading a character of a paired body leaves a paired body. -/
theorem Paired.of_front? {s rest : List Char} {ch : Char} (hs : Paired s)
    (h : front? s = some (ch, rest)) : Paired rest := by
  obtain ⟨-, ⟨a, b, c, d, rfl, hhex⟩ | ⟨c, rfl⟩ | ⟨rfl, hlast⟩⟩ := front?_cases h
  · -- the digits do not take the character behind them along
    obtain ⟨ha, hb, hc, hd⟩ := ne_backslash_of_hexChar? hhex
    exact (((hs.of_escape.of_plain ha).of_plain hb).of_plain hc).of_plain hd
  · exact hs.of_escape
  · cases hs with
    | plain _ h => exact h
    | escape h => cases hlast rfl

/-- What the reading of a paired body comes to is paired. -/
theorem Paired.of_meets {body rest : List Char} (hbody : Paired body) (h : Meets body rest) :
    Paired rest := by
  induction h with
  | start => exact hbody
  | step _ hfront ih => exact ih.of_front? hfront

/-- In front of the quote that closes a literal stands a paired body. -/
theorem paired_of_closeQuote {mark : Char} {cs : List Char} {n : Nat}
    (h : closeQuote mark cs = some n) :
    ∃ body rest, cs = body ++ mark :: rest ∧ n = body.length + 1 ∧ Paired body := by
  fun_induction closeQuote mark cs generalizing n with
  | case1 => cases h
  | case2 => cases h
  | case3 c tail ih =>
    obtain ⟨m, hm, rfl⟩ := Option.map_eq_some_iff.mp h
    obtain ⟨body, rest, rfl, rfl, hbody⟩ := ih hm
    exact ⟨'\\' :: c :: body, rest, rfl, rfl, hbody.escape⟩
  | case4 tail =>
    cases h
    exact ⟨[], tail, rfl, rfl, .nil⟩
  | case5 c tail hlast hescape _ ih =>
    obtain ⟨m, hm, rfl⟩ := Option.map_eq_some_iff.mp h
    obtain ⟨body, rest, rfl, rfl, hbody⟩ := ih hm
    refine ⟨c :: body, rest, rfl, rfl, hbody.plain ?_⟩
    -- a backslash would have taken along the character behind it
    rintro rfl
    cases body with
    | nil => exact hescape _ _ rfl rfl
    | cons d body => exact hescape _ _ rfl rfl

end Quoted

/-! ## The literals of a scan -/

/-- A token that is a literal if it is a string token: a paired body between two equal quotes. -/
def Token.Closed (t : Token) : Prop :=
  t.kind = .string →
    ∃ mark body, (mark = '"' ∨ mark = '\'') ∧ t.text.toList = mark :: (body ++ [mark]) ∧
      Quoted.Paired body

/-- Only a quote begins a string token. -/
theorem closeQuote_of_munch {c : Char} {cs : List Char} {n : Nat}
    (h : munch c cs = some (.token .string, n)) :
    (c = '"' ∨ c = '\'') ∧ closeQuote c cs = some n := by
  -- blanks and the first characters of other tokens are ruled out one after the other
  by_cases hblank : isBlank c = true
  · rw [munch, if_pos hblank] at h
    cases h
  by_cases hquote : c = '"' ∨ c = '\''
  · rw [munch, if_neg hblank, if_pos hquote] at h
    obtain ⟨m, hm, heq⟩ := Option.map_eq_some_iff.mp h
    cases heq
    exact ⟨hquote, hm⟩
  by_cases hdigit : isDigit c = true
  · rw [munch_digit hdigit] at h
    cases h
  by_cases hname : isNameStart c = true
  · rw [munch_nameStart hname] at h
    by_cases hkeyword : isKeyword (c :: cs.takeWhile isNamePart) = true <;> simp [hkeyword] at h
  · simpa using (munch_sign hblank hquote hdigit hname h).1

theorem closed_of_munch {c : Char} {cs : List Char} {kind : TokenKind} {n : Nat} (position : Nat)
    (h : munch c cs = some (.token kind, n)) :
    Token.Closed ⟨kind, String.ofList (c :: cs.take n), position⟩ := by
  rintro rfl
  obtain ⟨hmark, hclose⟩ := closeQuote_of_munch h
  obtain ⟨body, rest, rfl, rfl, hbody⟩ := Quoted.paired_of_closeQuote hclose
  have htake : (body ++ c :: rest).take (body.length + 1) = body ++ [c] := by
    rw [List.take_length_add_append, List.take_succ_cons, List.take_zero]
  exact ⟨c, body, hmark, by rw [htake, String.toList_ofList], hbody⟩

/-- The string tokens of a scan are literals. -/
theorem closed_of_scan {stops : List String} {depth position stop : Nat} {text : List Char}
    {ts : List Token} (h : scan stops depth position text = .ok (ts, stop)) : ∀ t ∈ ts, t.Closed :=
  (scanned_of_scan h).forall_mem closed_of_munch

/-- The string tokens among those of a text are literals. -/
theorem closed_of_listUntil {text : List Char} {start stop : Nat} {stops : List String}
    {ts : List Token} (h : Token.listUntil text start stops = .ok (ts, stop)) :
    ∀ t ∈ ts, t.Closed := by
  obtain ⟨⟨us, stop'⟩, hscan, hend⟩ := bind_eq_ok.mp h
  cases hend
  intro t ht
  rcases List.mem_append.mp ht with ht | ht
  · exact closed_of_scan hscan t ht
  · -- the token at the end is no string token
    obtain rfl := List.mem_singleton.mp ht
    intro hkind
    cases hkind

/-- A text between two equal quotes denotes what the body stands for. -/
theorem Token.operand?_literal {mark : Char} {body : List Char} {t : Token}
    (hkind : t.kind = .string) (htext : t.text.toList = mark :: (body ++ [mark])) :
    t.operand? = some (.str (unquote (String.ofList body))) := by
  simp [operand?, hkind, htext]

/-! ## The literal of a text -/

theorem toList_quote (s : String) :
    (quote s).toList = '"' :: (Quoted.encode s.toList ++ ['"']) := by
  simp [quote]

theorem lexes_toList_quote (s : String) (rest : List Char) :
    Lexes .string (quote s).toList rest := by
  rw [toList_quote]
  exact lexes_quote s.toList rest

/-- The literal of a text is the first token of a scan that it does not end. -/
theorem scan_quote {s : String} {stops : List String} (hstops : quote s ∉ stops)
    (depth position : Nat) (rest : List Char) :
    scan stops depth position ((quote s).toList ++ rest) =
      (scan stops depth (position + (quote s).length) rest).map
        fun r => (⟨.string, quote s, position⟩ :: r.1, r.2) := by
  have hstop : stopsAt stops depth (quote s) = false := by
    simp [stopsAt, hstops]
  have hdepth : depthAfter depth (quote s) = depth := by
    rw [quote]
    exact depthAfter_of_inner (by decide) depth
  have hscan : Scans stops depth _ position (quote s).toList rest _ :=
    Scans.lexeme (lexes_toList_quote s rest) (by rwa [String.ofList_toList])
  rw [String.ofList_toList, hdepth] at hscan
  exact hscan

/-- **String literals are lossless.** The literal of a text is, in front of any other text, the
first token of a scan, and denotes the text. Each string token of any source is a body between two
equal quotes that denotes what the body stands for, and the reading of the body comes to no
backslash with nothing behind it. -/
theorem literals_lossless :
    (∀ (s : String) (stops : List String) (depth position : Nat) (rest : List Char),
      quote s ∉ stops →
        scan stops depth position ((quote s).toList ++ rest) =
          (scan stops depth (position + (quote s).length) rest).map
            fun r => (⟨.string, quote s, position⟩ :: r.1, r.2)) ∧
    (∀ (s : String) (rest : List Char), Lexes .string (quote s).toList rest) ∧
    (∀ (s : String) (position : Nat),
      unquote (String.ofList ((quote s).toList.drop 1).dropLast) = s ∧
        Token.operand? ⟨.string, quote s, position⟩ = some (.str s)) ∧
    ∀ (text : List Char) (start stop : Nat) (stops : List String) (tokens : List Token),
      Token.listUntil text start stops = .ok (tokens, stop) →
        ∀ t ∈ tokens, t.kind = .string →
          ∃ mark body, (mark = '"' ∨ mark = '\'') ∧ t.text.toList = mark :: (body ++ [mark]) ∧
            t.operand? = some (.str (unquote (String.ofList body))) ∧
              ∀ rest, Quoted.Meets body rest →
                rest ≠ ['\\'] ∧ ∃ read, Quoted.decode body = read ++ Quoted.decode rest := by
  refine ⟨fun s stops depth position rest hstops => scan_quote hstops depth position rest,
    lexes_toList_quote, fun s position => ⟨?_, ?_⟩,
    fun text start stop stops tokens h t ht hkind => ?_⟩
  · simpa [toList_quote] using unquote_encode s
  · have hdenotes : Token.operand? ⟨.string, quote s, position⟩ = some (.str (unquote _)) :=
      Token.operand?_literal rfl (toList_quote s)
    rw [hdenotes, unquote_encode]
  · obtain ⟨mark, body, hmark, htext, hbody⟩ := closed_of_listUntil h t ht hkind
    exact ⟨mark, body, hmark, htext, Token.operand?_literal hkind htext,
      fun rest hmeets => ⟨(hbody.of_meets hmeets).ne_backslash, hmeets.decode_eq⟩⟩

/-- A text with a backslash in front of what looks like an escape, a quote and a line break. -/
theorem literals_lossless_escapes :
    let literal := "\"\\\\x0041\\\"\\n\""
    literal ∉ ["\x7d"] ∧
      Token.listUntil literal.toList 0 ["\x7d"] =
        .ok ([⟨.string, literal, 0⟩, Token.endAt 13], 13) ∧
      Token.operand? ⟨.string, literal, 0⟩ = some (.str "\\x0041\"\n") ∧
      ∃ mark body, literal.toList = mark :: (body ++ [mark]) ∧
        ∀ rest, Quoted.Meets body rest → rest ≠ ['\\'] := by
  intro literal
  have hliteral : quote "\\x0041\"\n" = literal := by decide
  have hlength : literal.length = 13 := by decide
  have hstops : literal ∉ ["\x7d"] := by decide
  obtain ⟨hscan, -, hread, hbodies⟩ := literals_lossless
  have hlist : Token.listUntil literal.toList 0 ["\x7d"] =
      .ok ([⟨.string, literal, 0⟩, Token.endAt 13], 13) := by
    have hfirst := hscan "\\x0041\"\n" ["\x7d"] 0 0 [] (hliteral ▸ hstops)
    rw [List.append_nil, hliteral, scan_nil, hlength] at hfirst
    rw [Token.listUntil, List.drop_zero, hfirst]
    rfl
  refine ⟨hstops, hlist, hliteral ▸ (hread "\\x0041\"\n" 0).2, ?_⟩
  obtain ⟨mark, body, -, htext, -, hmeets⟩ := hbodies _ _ _ _ _ hlist _ List.mem_cons_self rfl
  exact ⟨mark, body, htext, fun rest hrest => (hmeets rest hrest).1⟩

end Stencil

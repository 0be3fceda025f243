import Stencil.Charset.Wide

/-!
# Charsets

The charsets in which template sources may be stored, found by name. Names are compared without
regard to case, and any run of characters other than ASCII letters, digits and points between two
of these counts as one separator. No bytes decode to the empty text whatever the charset is called.

## Main definitions

* `Charset` is the type of charsets, `Charset.ofName?` finds one.
* `Charset.decode` decodes bytes.
* `decodeText` finds the charset and decodes in one step.

## Main results

* `decodeText_nil`: the empty source needs no charset.
-/

namespace Stencil

/-- A charset. -/
inductive Charset
  | utf8
  /-- UTF-8 whose byte order mark is dropped. -/
  | utf8Marked
  | ascii
  | latin1
  | windows1252
  | utf16
  | utf16In (order : ByteOrder)
  | utf32
  | utf32In (order : ByteOrder)
  deriving Repr, DecidableEq

namespace Charset

/-- The charset that a name without separators other than underscores denotes. -/
def byKey : List (String × Charset) :=
  [("utf_8", utf8), ("utf_8_sig", utf8Marked), ("ascii", ascii), ("latin_1", latin1),
   ("cp1252", windows1252), ("utf_16", utf16), ("utf_16_le", utf16In .little),
   ("utf_16_be", utf16In .big), ("utf_32", utf32), ("utf_32_le", utf32In .little),
   ("utf_32_be", utf32In .big)]

/-- Further names of the charsets. -/
def byAlias : List (String × Charset) :=
  (["u8", "utf", "utf8", "utf8_ucs2", "utf8_ucs4", "cp65001"].map (·, utf8)) ++
  (["646", "ansi_x3.4_1968", "ansi_x3_4_1968", "ansi_x3.4_1986", "cp367", "csascii", "ibm367",
    "iso646_us", "iso_646.irv_1991", "iso_ir_6", "us", "us_ascii"].map (·, ascii)) ++
  (["8859", "cp819", "csisolatin1", "ibm819", "iso8859", "iso8859_1", "iso_8859_1",
    "iso_8859_1_1987", "iso_ir_100", "l1", "latin", "latin1"].map (·, latin1)) ++
  (["1252", "windows_1252"].map (·, windows1252)) ++
  (["u16", "utf16"].map (·, utf16)) ++
  (["unicodelittleunmarked", "utf_16le"].map (·, utf16In .little)) ++
  (["unicodebigunmarked", "utf_16be"].map (·, utf16In .big)) ++
  (["u32", "utf32"].map (·, utf32)) ++
  [("utf_32le", utf32In .little), ("utf_32be", utf32In .big)]

/-- A character that belongs to a charset's name. -/
def isKeyChar (c : Char) : Bool :=
  c.isAlphanum || c == '.'

/-- The parts of a name between separators, the first of them continuing `part`. -/
def parts (part : List Char) : List Char → List (List Char)
  | [] => [part]
  | c :: rest => if isKeyChar c then parts (part ++ [c.toLower]) rest else part :: parts [] rest

/-- The comparable form of a name: its parts in lower case, with one underscore between them. -/
def key (name : String) : List Char :=
  ['_'].intercalate ((parts [] name.toList).filter (!·.isEmpty))

/-- The charset of a name. Further names may be written with a point for an underscore. -/
def ofName? (name : String) : Option Charset :=
  let k := key name
  let plain := k.map fun c => if c = '.' then '_' else c
  (byAlias.lookup (String.ofList k)).or <|
    (byAlias.lookup (String.ofList plain)).or <|
      byKey.lookup (String.ofList k)

/-- The characters that the bytes 0x80 to 0x9F stand for; five of them stand for none. -/
def windows1252Table : List (Option Char) :=
  [some '\u20AC', none, some '\u201A', some '\u0192', some '\u201E', some '\u2026', some '\u2020',
   some '\u2021', some '\u02C6', some '\u2030', some '\u0160', some '\u2039', some '\u0152', none,
   some '\u017D', none, none, some '\u2018', some '\u2019', some '\u201C', some '\u201D',
   some '\u2022', some '\u2013', some '\u2014', some '\u02DC', some '\u2122', some '\u0161',
   some '\u203A', some '\u0153', none, some '\u017E', some '\u0178']

/-- The character that a byte stands for. -/
def windows1252Char? (b : UInt8) : Option Char :=
  if 0x80 ≤ b ∧ b < 0xA0 then (windows1252Table[b.toNat - 0x80]?).join
  else some (Char.ofNat b.toNat)

/-- Decodes bytes one by one, the first of which stands at `pos`. -/
def decodeEach (codec reason : String) (char? : UInt8 → Option Char) (pos : Nat) :
    List UInt8 → Except DecodeError (List Char)
  | [] => .ok []
  | b :: rest =>
    match char? b with
    | some c => (decodeEach codec reason char? (pos + 1) rest).map (c :: ·)
    | none => .error ⟨codec, pos, pos + 1, b, reason⟩

/-- Drops the byte order mark of UTF-8. -/
def dropMark : List UInt8 → List UInt8
  | 0xEF :: 0xBB :: 0xBF :: rest => rest
  | bytes => bytes

/-- Decodes bytes. -/
def decode : Charset → List UInt8 → Except DecodeError (List Char)
  | utf8 => Utf8.decode
  | utf8Marked => fun bytes => Utf8.decode (dropMark bytes)
  | ascii =>
    decodeEach "ascii" "ordinal not in range(128)"
      (fun b => if b < 0x80 then some (Char.ofNat b.toNat) else none) 0
  | latin1 => decodeEach "latin-1" "" (fun b => some (Char.ofNat b.toNat)) 0
  | windows1252 => decodeEach "charmap" "character maps to <undefined>" windows1252Char? 0
  | utf16 => Utf16.decodeMarked
  | utf16In order => Utf16.decode order
  | utf32 => Utf32.decodeMarked
  | utf32In order => Utf32.decode order

end Charset

/-- Why bytes cannot be decoded under a charset's name. -/
inductive CharsetError
  /-- The name contains the character NUL, which no name may. -/
  | nulInName
  /-- No charset has the name. -/
  | unknown
  | undecodable (e : DecodeError)
  deriving Repr, DecidableEq

/-- Decodes bytes in the charset of the given name. The name of the charset is not looked up when
there is nothing to decode. -/
def decodeText (charset : String) (bytes : List UInt8) : Except CharsetError String :=
  if '\x00' ∈ charset.toList then .error .nulInName
  else if bytes.isEmpty then .ok ""
  else
    match Charset.ofName? charset with
    | none => .error .unknown
    | some c =>
      match c.decode bytes with
      | .ok cs => .ok (String.ofList cs)
      | .error e => .error (.undecodable e)

/-- The empty source needs no charset. -/
theorem decodeText_nil {charset : String} (h : '\x00' ∉ charset.toList) :
    decodeText charset [] = .ok "" := by
  simp [decodeText, h]

end Stencil

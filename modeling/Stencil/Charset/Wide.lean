import Stencil.Charset.Utf8

/-!
# Decoding UTF-16 and UTF-32

Characters written in units of two or four bytes, in either byte order. In UTF-16 a character
beyond U+FFFF is a *high* and a *low surrogate* one after the other.

## Main definitions

* `ByteOrder` is the order of the bytes in a unit.
* `Utf16.decode` and `Utf32.decode` decode bytes in a given order.
* `Utf16.decodeMarked` and `Utf32.decodeMarked` take the order from the byte order mark, and little
  endian without one.
-/

namespace Stencil

/-- Which byte of a unit comes first. -/
inductive ByteOrder
  | little
  | big
  deriving Repr, DecidableEq

/-- The number that the bytes of a unit write. -/
def ByteOrder.unit (order : ByteOrder) (bytes : List UInt8) : Nat :=
  let mostSignificantFirst :=
    match order with
    | .little => bytes.reverse
    | .big => bytes
  mostSignificantFirst.foldl (fun n b => 256 * n + b.toNat) 0

/-- The suffix of a charset's name. -/
def ByteOrder.suffix : ByteOrder → String
  | little => "-le"
  | big => "-be"

namespace Utf16

/-- A failure over the bytes from `start` to `stop`. -/
def fail (order : ByteOrder) (start stop : Nat) (byte : UInt8) (reason : String) : DecodeError :=
  ⟨"utf-16" ++ order.suffix, start, stop, byte, reason⟩

/-- A unit that begins a pair. -/
def isHigh (u : Nat) : Bool := 0xD800 ≤ u && u < 0xDC00

/-- A unit that ends a pair. -/
def isLow (u : Nat) : Bool := 0xDC00 ≤ u && u < 0xE000

/-- Decodes bytes, the first of which stands at `pos`. -/
def decodeFrom (order : ByteOrder) (pos : Nat) : List UInt8 → Except DecodeError (List Char)
  | [] => .ok []
  | [a] => .error (fail order pos (pos + 1) a "truncated data")
  | a :: b :: tail =>
    let u := order.unit [a, b]
    if isLow u then .error (fail order pos (pos + 2) a "illegal encoding")
    else if isHigh u then
      match tail with
      | c :: d :: tail =>
        let v := order.unit [c, d]
        if isLow v then
          Utf8.put (0x10000 + (u - 0xD800) * 1024 + (v - 0xDC00)) (decodeFrom order (pos + 4) tail)
        else .error (fail order pos (pos + 2) a "illegal UTF-16 surrogate")
      | rest => .error (fail order pos (pos + 2 + rest.length) a "unexpected end of data")
    else Utf8.put u (decodeFrom order (pos + 2) tail)

/-- Decodes bytes in a given order. -/
def decode (order : ByteOrder) (bytes : List UInt8) : Except DecodeError (List Char) :=
  decodeFrom order 0 bytes

/-- Decodes bytes in the order that their byte order mark shows. -/
def decodeMarked : List UInt8 → Except DecodeError (List Char)
  | 0xFF :: 0xFE :: rest => decodeFrom .little 2 rest
  | 0xFE :: 0xFF :: rest => decodeFrom .big 2 rest
  | bytes => decodeFrom .little 0 bytes

end Utf16

namespace Utf32

/-- A failure over the bytes from `start` to `stop`. -/
def fail (order : ByteOrder) (start stop : Nat) (byte : UInt8) (reason : String) : DecodeError :=
  ⟨"utf-32" ++ order.suffix, start, stop, byte, reason⟩

/-- Decodes bytes, the first of which stands at `pos`. -/
def decodeFrom (order : ByteOrder) (pos : Nat) : List UInt8 → Except DecodeError (List Char)
  | [] => .ok []
  | a :: b :: c :: d :: tail =>
    let u := order.unit [a, b, c, d]
    if 0xD800 ≤ u ∧ u < 0xE000 then
      .error (fail order pos (pos + 4) a
        "code point in surrogate code point range(0xd800, 0xe000)")
    else if 0x110000 ≤ u then
      .error (fail order pos (pos + 4) a "code point not in range(0x110000)")
    else Utf8.put u (decodeFrom order (pos + 4) tail)
  | a :: rest => .error (fail order pos (pos + 1 + rest.length) a "truncated data")

/-- Decodes bytes in a given order. -/
def decode (order : ByteOrder) (bytes : List UInt8) : Except DecodeError (List Char) :=
  decodeFrom order 0 bytes

/-- Decodes bytes in the order that their byte order mark shows. -/
def decodeMarked : List UInt8 → Except DecodeError (List Char)
  | 0xFF :: 0xFE :: 0x00 :: 0x00 :: rest => decodeFrom .little 4 rest
  | 0x00 :: 0x00 :: 0xFE :: 0xFF :: rest => decodeFrom .big 4 rest
  | bytes => decodeFrom .little 0 bytes

end Utf32

end Stencil

/-!
# Decoding UTF-8

A sequence of two to four bytes writes one character from U+0080 on. Reading fails at the first
byte that begins no sequence, and at the first sequence that breaks off; the failure names the
longest part of the sequence that could still have been one.

## Main definitions

* `DecodeError` is a failure of any charset: where it lies, and why.
* `Utf8.decode` decodes a list of bytes.
-/

namespace Stencil

/-- A failure to decode bytes. -/
structure DecodeError where
  /-- The name of the rule that failed. -/
  codec : String
  /-- The position of the first byte concerned. -/
  start : Nat
  /-- The position behind the last byte concerned. -/
  stop : Nat
  /-- The first byte concerned. -/
  byte : UInt8
  /-- What is wrong. -/
  reason : String
  deriving Repr, DecidableEq

namespace DecodeError

/-- Two lower-case hexadecimal digits. -/
def hexByte (b : UInt8) : String :=
  String.ofList [Nat.digitChar (b.toNat / 16), Nat.digitChar (b.toNat % 16)]

/-- The wording of a failure. -/
def message (e : DecodeError) : String :=
  let what :=
    if e.stop ≤ e.start + 1 then "byte 0x" ++ hexByte e.byte ++ " in position " ++ toString e.start
    else "bytes in position " ++ toString e.start ++ "-" ++ toString (e.stop - 1)
  "'" ++ e.codec ++ "' codec can't decode " ++ what ++ ": " ++ e.reason

end DecodeError

namespace Utf8

/-- A byte that continues a sequence. -/
def isContinuation (b : UInt8) : Bool :=
  0x80 ≤ b && b < 0xC0

/-- The second byte is restricted further where a shorter sequence, a surrogate or a character
beyond the last one would be written. -/
def isSecond (lead b : UInt8) : Bool :=
  isContinuation b &&
    !(lead == 0xE0 && b < 0xA0) && !(lead == 0xED && 0xA0 ≤ b) &&
    !(lead == 0xF0 && b < 0x90) && !(lead == 0xF4 && 0x90 ≤ b)

/-- The low six bits, which a continuation byte carries. -/
def payload (b : UInt8) : Nat := b.toNat % 64

/-- A failure over the `count` bytes from `pos` on. -/
def fail (pos count : Nat) (byte : UInt8) (reason : String) : DecodeError :=
  ⟨"utf-8", pos, pos + count, byte, reason⟩

/-- The number of bytes in the sequence that a byte begins; zero if it begins none. -/
def sequenceLength (lead : UInt8) : Nat :=
  if lead < 0x80 then 1
  else if lead < 0xC2 then 0
  else if lead < 0xE0 then 2
  else if lead < 0xF0 then 3
  else if lead < 0xF5 then 4
  else 0

/-- Puts a character before what is decoded behind it. -/
def put (code : Nat) (rest : Except DecodeError (List Char)) : Except DecodeError (List Char) :=
  rest.map (Char.ofNat code :: ·)

/-- Decodes bytes, the first of which stands at `pos`. -/
def decodeFrom (pos : Nat) : List UInt8 → Except DecodeError (List Char)
  | [] => .ok []
  | a :: tail =>
    match sequenceLength a with
    | 0 => .error (fail pos 1 a "invalid start byte")
    | 1 => put a.toNat (decodeFrom (pos + 1) tail)
    | length =>
      match tail with
      | [] => .error (fail pos 1 a "unexpected end of data")
      | b :: tail =>
        if !isSecond a b then .error (fail pos 1 a "invalid continuation byte")
        else if length = 2 then
          put (a.toNat % 32 * 64 + payload b) (decodeFrom (pos + 2) tail)
        else
          match tail with
          | [] => .error (fail pos 2 a "unexpected end of data")
          | c :: tail =>
            if !isContinuation c then .error (fail pos 2 a "invalid continuation byte")
            else if length = 3 then
              put ((a.toNat % 16 * 64 + payload b) * 64 + payload c) (decodeFrom (pos + 3) tail)
            else
              match tail with
              | [] => .error (fail pos 3 a "unexpected end of data")
              | d :: tail =>
                if !isContinuation d then .error (fail pos 3 a "invalid continuation byte")
                else
                  put (((a.toNat % 8 * 64 + payload b) * 64 + payload c) * 64 + payload d)
                    (decodeFrom (pos + 4) tail)

/-- Decodes bytes. -/
def decode (bytes : List UInt8) : Except DecodeError (List Char) :=
  decodeFrom 0 bytes

end Utf8

end Stencil

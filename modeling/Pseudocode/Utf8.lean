import Pseudocode.Text

/-!
# UTF-8

A character is one to four bytes; the first byte says how many follow and between which bounds
the second one lies, so that no character has two encodings and no surrogate has any.

* `encode` writes a text.
* `decode` reads it back one byte at a time and stops at the first byte that cannot continue
  what stands before it. `DecodeError` holds the bytes that were given up and the reason.
-/

namespace Pseudocode.Utf8

/-- The bytes of a text. -/
def encode (s : Text) : List UInt8 :=
  s.flatMap String.utf8EncodeChar

/-- Why bytes are no UTF-8. -/
inductive Reason where
  /-- The byte opens no character. -/
  | invalidStart
  /-- The bytes open a character that the next byte does not continue. -/
  | invalidContinuation
  /-- The bytes open a character and nothing follows. -/
  | unexpectedEnd
deriving DecidableEq

/-- The first bytes that are no UTF-8: where they start, counted from zero, and what they are. -/
structure DecodeError where
  start : Nat
  first : UInt8
  /-- How many bytes of the character after the first are given up with it. -/
  following : Nat
  reason : Reason
deriving DecidableEq

/-- The bounds, both included, that the next byte of a character lies between. -/
structure Bounds where
  least : UInt8
  greatest : UInt8
deriving DecidableEq

/-- Whether the byte lies between the bounds. -/
def Bounds.admits (b : Bounds) (byte : UInt8) : Bool :=
  b.least ≤ byte && byte ≤ b.greatest

/-- The bounds of a byte that only continues a character. -/
def Bounds.tail : Bounds := ⟨0x80, 0xbf⟩

/-- A character of which the first bytes have been read. -/
structure Opening where
  start : Nat
  first : UInt8
  /-- How many bytes after the first have been read. -/
  following : Nat
  /-- What the bytes read so far say of the code point. -/
  value : Nat
  /-- The bounds of the next byte. -/
  next : Bounds
  /-- How many bytes come after the next one. -/
  remaining : Nat
deriving DecidableEq

/-- What a first byte opens: nothing, if it opens no character of two or more bytes. The bounds
    of the second byte are narrower after `e0` and `f0` (a shorter encoding exists), after `ed`
    (surrogates) and after `f4` (beyond the last code point). -/
def Opening.ofFirst? (start : Nat) (byte : UInt8) : Option Opening :=
  if 0xc2 ≤ byte ∧ byte ≤ 0xdf then some ⟨start, byte, 0, byte.toNat % 32, .tail, 0⟩
  else if byte = 0xe0 then some ⟨start, byte, 0, 0, ⟨0xa0, 0xbf⟩, 1⟩
  else if byte = 0xed then some ⟨start, byte, 0, 13, ⟨0x80, 0x9f⟩, 1⟩
  else if 0xe1 ≤ byte ∧ byte ≤ 0xef then some ⟨start, byte, 0, byte.toNat % 16, .tail, 1⟩
  else if byte = 0xf0 then some ⟨start, byte, 0, 0, ⟨0x90, 0xbf⟩, 2⟩
  else if byte = 0xf4 then some ⟨start, byte, 0, 4, ⟨0x80, 0x8f⟩, 2⟩
  else if 0xf1 ≤ byte ∧ byte ≤ 0xf3 then some ⟨start, byte, 0, byte.toNat % 8, .tail, 2⟩
  else none

/-- The error of giving up a character at the bytes read so far. -/
def Opening.giveUp (o : Opening) (reason : Reason) : DecodeError :=
  ⟨o.start, o.first, o.following, reason⟩

/-- The code point after one more byte, which adds six bits. -/
def Opening.valueWith (o : Opening) (byte : UInt8) : Nat :=
  o.value * 64 + byte.toNat % 64

/-- A character after one more byte that is not its last. -/
def Opening.advance (o : Opening) (byte : UInt8) : Opening :=
  { o with
    following := o.following + 1
    value := o.valueWith byte
    next := .tail
    remaining := o.remaining - 1 }

/-- Reads bytes from the offset `offset` on, within the character `opening` if there is one. -/
def decodeFrom (offset : Nat) : Option Opening → List UInt8 → Except DecodeError Text
  | none, [] => .ok []
  | some o, [] => .error (o.giveUp .unexpectedEnd)
  | none, byte :: rest =>
    if byte < 0x80 then
      (Char.ofNat byte.toNat :: ·) <$> decodeFrom (offset + 1) none rest
    else
      match Opening.ofFirst? offset byte with
      | none => .error ⟨offset, byte, 0, .invalidStart⟩
      | some o => decodeFrom (offset + 1) (some o) rest
  | some o, byte :: rest =>
    if o.next.admits byte then
      if o.remaining = 0 then
        (Char.ofNat (o.valueWith byte) :: ·) <$> decodeFrom (offset + 1) none rest
      else
        decodeFrom (offset + 1) (some (o.advance byte)) rest
    else .error (o.giveUp .invalidContinuation)

/-- The text whose UTF-8 encoding the bytes are, or the first place where they are none. -/
def decode (bytes : List UInt8) : Except DecodeError Text :=
  decodeFrom 0 none bytes

/-- The reason in words. -/
def Reason.text : Reason → Text
  | .invalidStart => "invalid start byte".toList
  | .invalidContinuation => "invalid continuation byte".toList
  | .unexpectedEnd => "unexpected end of data".toList

/-- The message names a single byte, and of several only the first and the last offset. -/
def DecodeError.message (e : DecodeError) : Text :=
  "'utf-8' codec can't decode byte".toList ++
    (if e.following = 0 then
      " 0x".toList ++ Text.hex 2 e.first.toNat ++ " in position ".toList ++ Text.ofNat e.start
    else
      "s in position ".toList ++ Text.ofNat e.start ++ '-' :: Text.ofNat (e.start + e.following)) ++
    ": ".toList ++ e.reason.text

end Pseudocode.Utf8

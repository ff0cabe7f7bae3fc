/-
Reading an encoded text in portions.

A file is read in portions of a fixed number of bytes, and each portion is decoded as it comes.  The
bytes of a character may be spread over two portions: a character that has begun is kept for the next
one.  A portion with a byte that cannot stand where it does gives nothing at all, and the reading
breaks off there; it also does at the end of the file when a character is not complete.

Main definitions:

* `Geofence.Text.Begun` — a character that has begun;
* `Geofence.Text.Decoder`, `Geofence.Text.Decoder.feed` — what was decoded, and one more byte;
* `Geofence.Text.Extract` — what is read of a file.
-/

import Geofence.Text.Basic

set_option relaxedAutoImplicit false
set_option autoImplicit false

namespace Geofence.Text

/-- A character that has begun: the bits of its code point there are, the number of bytes behind the
next one, and the bounds of the next one. -/
structure Begun where
  code : Nat
  later : Nat
  low : Nat
  high : Nat

/-- What was decoded, with the last character in front, and a character that has begun. -/
structure Decoder where
  done : Text
  begun : Option Begun

namespace Decoder

/-- Nothing is decoded yet. -/
def start : Decoder := ⟨[], none⟩

/-- One more character. -/
def push (d : Decoder) (code : Nat) : Decoder := ⟨Char.ofNat code :: d.done, none⟩

/-- A character begins, or goes on. -/
def begin (d : Decoder) (code later low high : Nat) : Decoder :=
  ⟨d.done, some ⟨code, later, low, high⟩⟩

/-- The first byte of a character.  The bounds of the byte behind it leave out code points that have
a shorter encoding, and what is beyond the last code point. -/
def feedFirst (d : Decoder) (b : Nat) : Option Decoder :=
  if b < 0x80 then some (d.push b)
  else if b < 0xc2 then none
  else if b < 0xe0 then some (d.begin (b - 0xc0) 0 0x80 0xbf)
  else if b < 0xf0 then
    some (d.begin (b - 0xe0) 1 (if b = 0xe0 then 0xa0 else 0x80) 0xbf)
  else if b < 0xf5 then
    some (d.begin (b - 0xf0) 2 (if b = 0xf0 then 0x90 else 0x80) (if b = 0xf4 then 0x8f else 0xbf))
  else none

/-- A later byte of a character.  No byte can stand behind the first two of half a surrogate pair. -/
def feedLater (d : Decoder) (c : Begun) (b : Nat) : Option Decoder :=
  if c.low ≤ b ∧ b ≤ c.high then
    let code := c.code * 64 + (b - 0x80)
    match c.later with
    | 0 => some (d.push code)
    | later + 1 => some (d.begin code later 0x80 (if code / 0x20 = 0x1b then 0 else 0xbf))
  else none

/-- One more byte, if it can stand there. -/
def feed (d : Decoder) (b : UInt8) : Option Decoder :=
  match d.begun with
  | none => d.feedFirst b.toNat
  | some c => d.feedLater c b.toNat

end Decoder

/-- What is read of a file: a text, and whether it is all there is. -/
structure Extract where
  text : Text
  whole : Bool

/-- The number of bytes in a portion. -/
def portion : Nat := 8192

/-- What is read of a file of which `count` bytes came before: `d` is decoded by now, and `mark` was
when the portion began. -/
def Decoder.read (d mark : Decoder) (count : Nat) : List UInt8 → Extract
  | [] => ⟨d.done.reverse, d.begun.isNone⟩
  | b :: bytes =>
    let mark := if count % portion = 0 then d else mark
    match d.feed b with
    | none => ⟨mark.done.reverse, false⟩
    | some d => d.read mark (count + 1) bytes

/-- **What is read of a file** of some bytes. -/
def Extract.ofBytes (bytes : ByteArray) : Extract :=
  Decoder.start.read .start 0 bytes.data.toList

end Geofence.Text

/-
The Mersenne twister.

The generator keeps the last 624 words of its sequence.  The next word is made of three of them, the
first and second one and number 397; it takes the place of the first one, so that the words stand in
a ring of which the first one moves on.  Before it is handed out, its bits are mixed once more.  A
seed is a natural number of any size, taken in digits of 32 bits.

Main definitions:

* `Geofence.Twister` — the words and the place of the first one;
* `Geofence.Twister.next` — the next word of the sequence;
* `Geofence.Twister.ofKey`, `Geofence.Twister.ofSeed` — the generator with a seed.
-/

set_option relaxedAutoImplicit false
set_option autoImplicit false

namespace Geofence

/-- The words of the generator, in a ring, and the place of the first one. -/
structure Twister where
  words : Vector UInt32 624
  first : Fin 624

namespace Twister

/-! ### The sequence -/

/-- The upper bit of one word with the lower bits of the next one, shifted and folded back. -/
def twist (upper lower : UInt32) : UInt32 :=
  let w := (upper &&& 0x80000000) ||| (lower &&& 0x7fffffff)
  (w >>> 1) ^^^ (if w &&& 1 = 0 then 0 else 0x9908b0df)

/-- A word as it is handed out. -/
def temper (w : UInt32) : UInt32 :=
  let w := w ^^^ (w >>> 11)
  let w := w ^^^ ((w <<< 7) &&& 0x9d2c5680)
  let w := w ^^^ ((w <<< 15) &&& 0xefc60000)
  w ^^^ (w >>> 18)

/-- **The next word of the sequence.** -/
def next (s : Twister) : UInt32 × Twister :=
  let w := s.words[s.first + 397] ^^^ twist s.words[s.first] s.words[s.first + 1]
  (temper w, ⟨s.words.set s.first w, s.first + 1⟩)

/-! ### Seeds -/

/-- A word with the one before it stirred in. -/
def stirred (factor : UInt32) (words : Vector UInt32 624) (i : Fin 624) : UInt32 :=
  let before := words[i - 1]
  words[i] ^^^ ((before ^^^ (before >>> 30)) * factor)

/-- A word is written, and the next place follows; the place of the first word is passed over, and
takes the last one. -/
def put (words : Vector UInt32 624) (i : Fin 624) (w : UInt32) : Vector UInt32 624 × Fin 624 :=
  let words := words.set i w
  if i = 623 then (words.set 0 w, 1) else (words, i + 1)

/-- The words that one number is stretched to. -/
def ofWord (w : UInt32) : Vector UInt32 624 :=
  (List.finRange 624).tail.foldl
    (fun words (i : Fin 624) =>
      let before := words[i - 1]
      words.set i ((before ^^^ (before >>> 30)) * 1812433253 + UInt32.ofNat i.val))
    (Vector.replicate 624 w)

/-- **The generator with a key**, of at least one word: the key is added along the words, over and
over if it is short, and then the place of each word is taken off. -/
def ofKey (key : Array UInt32) : Twister :=
  let (words, i) := (List.range (max 624 key.size)).foldl
    (fun (words, i) n =>
      let j := n % key.size
      put words i (stirred 1664525 words i + key.getD j 0 + UInt32.ofNat j))
    (ofWord 19650218, 1)
  let (words, _) := (List.range 623).foldl
    (fun (words, i) _ => put words i (stirred 1566083941 words i - UInt32.ofNat i.val))
    (words, i)
  ⟨words.set 0 0x80000000, 0⟩

/-- The digits of a number to the base `2 ^ 32`, the lowest one first. -/
def digits (n : Nat) : List UInt32 :=
  if n < 0x100000000 then [UInt32.ofNat n]
  else UInt32.ofNat (n % 0x100000000) :: digits (n / 0x100000000)

/-- **The generator with a seed**, whose sign does not count. -/
def ofSeed (seed : Int) : Twister := ofKey (digits seed.natAbs).toArray

end Twister

end Geofence

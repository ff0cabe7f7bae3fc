/-
Drawing at random.

A sample is drawn with two kinds of random numbers: whole numbers below a bound, and numbers from
zero up to below one.  The generator of the program is the Mersenne twister.  It makes a whole number
of as many bits as the bound has, and tries again as long as the number is not below the bound; such
a number has its first bit set, which the twister, whose first bits run through all their patterns of
19937 draws, does not do more often than that in a row.

Main definitions:

* `Geofence.Generator` — a generator, as a sample is drawn with it;
* `Geofence.Generator.pick`, `Geofence.Generator.between` — one of several things, and a number
  between two;
* `Geofence.twister` — the generator of the program.
-/

import Geofence.Number.Binary64
import Geofence.Sample.Twister

set_option relaxedAutoImplicit false
set_option autoImplicit false

namespace Geofence

/-! ### Generators -/

/-- A generator of random numbers: its states, the one that a seed begins with, a number below a
bound, and a number from zero up to below one. -/
structure Generator where
  State : Type
  seeded : Int → State
  below : Nat → StateM State Nat
  unit : StateM State Float

namespace Generator

variable (g : Generator)

/-- One of `first` and `others`. -/
def pick {α : Type} (first : α) (others : List α) : StateM g.State α := do
  let i ← g.below (others.length + 1)
  pure ((first :: others).getD i first)

/-- A number between two. -/
def between (a b : Float) : StateM g.State Float := do
  let r ← g.unit
  pure (a + (b - a) * r)

end Generator

/-! ### The generator of the program -/

namespace Twister

/-- A number of `count` bits: the upper bits of a word, above whole words. -/
def bits (count : Nat) : StateM Twister Nat := do
  let w ← next
  if count ≤ 32 then pure (w >>> UInt32.ofNat (32 - count)).toNat
  else do
    let rest ← bits (count - 32)
    pure (w.toNat + 0x100000000 * rest)

/-- A number below a bound, if one of some draws is. -/
def tryBelow (bound : Nat) : Nat → StateM Twister Nat
  | 0 => pure 0
  | tries + 1 => do
    let n ← bits (bound.log2 + 1)
    if n < bound then pure n else tryBelow bound tries

/-- The number of draws of which one has its first bit clear. -/
def patience : Nat := 19938

/-- A number of 53 bits, as a fraction of `2 ^ 53`. -/
def unit : StateM Twister Float := do
  let upper ← next
  let lower ← next
  pure (Binary64.nearest false
    (((upper >>> 5).toNat * 0x4000000 + (lower >>> 6).toNat : Nat) / 0x20000000000000))

end Twister

/-- **The generator of the program.** -/
def twister : Generator where
  State := Twister
  seeded := Twister.ofSeed
  below bound := Twister.tryBelow bound Twister.patience
  unit := Twister.unit

end Geofence

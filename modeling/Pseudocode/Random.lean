import Pseudocode.Number.Binary

/-!
# Random numbers

A sequence of numbers below one for each seed. The number at a place is a mixture of the bits of the
seed and the place, so no state has to be kept.

The sequences are this library's own. A seed tells runs of this program apart and makes them
repeatable, but with another generator the same seed gives other numbers. Nothing that is proved of
runs depends on this: there the sequence is any function of the place.
-/

namespace Pseudocode.Random

/-- Mix the bits of a word so that every bit of the result depends on all of them. -/
def mix (z : UInt64) : UInt64 :=
  let z := (z ^^^ (z >>> 30)) * 0xBF58476D1CE4E5B9
  let z := (z ^^^ (z >>> 27)) * 0x94D049BB133111EB
  z ^^^ (z >>> 31)

/-- The number at a place of this generator's sequence for a seed. -/
def draw (seed : Int) (place : Nat) : Number :=
  let word := UInt64.ofNat (seed % Word.count).toNat + UInt64.ofNat (place + 1) * 0x9E3779B97F4A7C15
  Number.ofNat (mix word >>> 11).toNat / Number.ofNat 9007199254740992

end Pseudocode.Random

/-!
# Sets of characters

A property of characters is kept as the ranges of code points that have it. A mapping between
characters is kept as runs: stretches of equally spaced code points that all move by one distance.
Ranges and runs stand in ascending order, so a search looks only at those that begin at or before
the character, and is short for the characters most used.
-/

namespace Pseudocode

/-- Whether ranges stand in ascending order without overlapping, from some code point on. -/
def isAscending (low : Nat) : List (Nat × Nat) → Bool
  | [] => true
  | (first, last) :: rest =>
    decide (low ≤ first) && decide (first ≤ last) && isAscending (last + 1) rest

/-- A set of characters, as closed ranges of code points in ascending order. -/
structure CharSet where
  ranges : List (Nat × Nat)
  ascending : isAscending 0 ranges = true := by decide +kernel

/-- Whether a character lies in one of the ranges. -/
def CharSet.contains (s : CharSet) (c : Char) : Bool :=
  (s.ranges.takeWhile fun r => decide (r.1 ≤ c.toNat)).any fun r => decide (c.toNat ≤ r.2)

/-- The code points from `first` to `last`, `step` apart, which move to `target` and what follows
it. -/
structure CharRun where
  first : Nat
  last : Nat
  step : Nat
  target : Nat
  deriving DecidableEq, Repr

namespace CharRun

/-- Whether a code point is one of the run's. -/
def covers (r : CharRun) (n : Nat) : Bool :=
  decide (r.first ≤ n) && decide (n ≤ r.last) && (n - r.first) % r.step == 0

/-- The range that a run lies in. -/
def range (r : CharRun) : Nat × Nat := (r.first, r.last)

end CharRun

/-- A mapping between characters, as runs in ascending order. -/
structure CharMap where
  runs : List CharRun
  ascending : isAscending 0 (runs.map CharRun.range) = true := by decide +kernel

namespace CharMap

/-- The run that covers a character. -/
def run? (m : CharMap) (c : Char) : Option CharRun :=
  (m.runs.takeWhile fun r => decide (r.first ≤ c.toNat)).find? (·.covers c.toNat)

/-- Where a character is sent. One that no run covers stays. -/
def apply (m : CharMap) (c : Char) : Char :=
  match m.run? c with
  | some r => Char.ofNat (r.target + (c.toNat - r.first))
  | none => c

end CharMap

end Pseudocode

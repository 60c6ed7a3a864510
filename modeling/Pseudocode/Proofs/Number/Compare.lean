import Pseudocode.Number.Binary

/-!
# Which of two numbers comes first does not matter to their equality

Doubles are compared by sign, exponent and significand. To compare two of them in the other order
swaps the outcome, where there is one: with what is not a number there is none.
-/

namespace Pseudocode

open Float.Model

theorem compare_then_swap (e e' : Int) (m m' : Nat) :
    ((compare e e').then (compare m m')).swap = (compare e' e).then (compare m' m) := by
  rw [Ordering.swap_then, ← Std.OrientedOrd.eq_swap, ← Std.OrientedOrd.eq_swap]

theorem unpackedCompare_swap (a b : UnpackedFloat) :
    (a.compare b).map Ordering.swap = b.compare a := by
  cases a with
  | notANumber =>
    cases b with
    | notANumber | infinity | finite | zero => rfl
  | infinity s =>
    cases b with
    | notANumber => rfl
    | infinity s' =>
      cases s with
      | positive | negative =>
        cases s' with
        | positive | negative => rfl
    | finite | zero =>
      cases s with
      | positive | negative => rfl
  | zero s =>
    cases b with
    | notANumber | zero => rfl
    | infinity s' | finite s' =>
      cases s' with
      | positive | negative => rfl
  | finite s m e =>
    cases b with
    | notANumber => rfl
    | infinity s' =>
      cases s' with
      | positive | negative => rfl
    | zero =>
      cases s with
      | positive | negative => rfl
    | finite s' m' e' =>
      have swapped := compare_then_swap e e' m m'
      cases s with
      | positive =>
        cases s' with
        | positive => exact congrArg some swapped
        | negative => rfl
      | negative =>
        cases s' with
        | positive => rfl
        | negative => exact congrArg (fun o => some (Ordering.swap o)) swapped

theorem Number.beq_comm (x y : Number) : (x == y) = (y == x) := by
  let a := x.toModel.unpack
  let b := y.toModel.unpack
  change (a.compare b == some .eq) = (b.compare a == some .eq)
  rw [← unpackedCompare_swap a b]
  cases a.compare b with
  | none => rfl
  | some o =>
    cases o with
    | lt | eq | gt => rfl

end Pseudocode

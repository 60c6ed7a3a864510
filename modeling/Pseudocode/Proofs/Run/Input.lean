import Pseudocode.Proofs.Text.Lines

/-!
# The lines that an input still has

Whatever the lines come from, an input can be looked at as the list of the lines that it still has:
a read that succeeds takes the first of them, and one that fails takes none.
-/

namespace Pseudocode

section Bytes

variable {bytes line after : List UInt8}

/-- The lines that end in a newline, without it. -/
def endedLines (bytes : List UInt8) : List (List UInt8) := (Text.splitBytes 10 bytes).dropLast

/-- What stands behind the last newline. -/
def openLine (bytes : List UInt8) : List UInt8 := (Text.splitBytes 10 bytes).getLastD []

theorem endedLines_of_line (split : splitLine? bytes = some (line, after)) :
    endedLines bytes = line :: endedLines after := by
  rw [endedLines, splitBytes_of_line split, List.dropLast_cons_of_ne_nil splitBytes_ne_nil]
  rfl

theorem openLine_of_line (split : splitLine? bytes = some (line, after)) :
    openLine bytes = openLine after := by
  rw [openLine, splitBytes_of_line split, openLine]
  cases pieces : Text.splitBytes 10 after with
  | nil => exact absurd pieces splitBytes_ne_nil
  | cons => rfl

theorem endedLines_of_no_line (none : splitLine? bytes = none) : endedLines bytes = [] := by
  rw [endedLines, splitBytes_of_no_line none]
  rfl

theorem openLine_of_no_line (none : splitLine? bytes = none) : openLine bytes = bytes := by
  rw [openLine, splitBytes_of_no_line none]
  rfl

end Bytes

namespace Input

/-- The lines that a stream still has. What stands in front of a device error is none. -/
def streamLines (rest : List UInt8) (broken : Bool) : List Text :=
  (endedLines rest).map (fun line => ⟨trimLineEnd line⟩) ++
    if broken || (openLine rest).isEmpty then [] else [⟨trimLineEnd (openLine rest)⟩]

/-- The lines that the editor still has. What stands in front of a device error is one. -/
def editorLines (rest : List UInt8) : List Text :=
  (endedLines rest).map (fun line => ⟨dropReturn line⟩) ++
    if (openLine rest).isEmpty then [] else [⟨openLine rest⟩]

/-- The lines that an input still has. -/
def remaining : Input → List Text
  | lines rest => rest
  | stream rest broken => streamLines rest broken
  | editor rest _ => editorLines rest

theorem streamLines_readStream {rest rest' : List UInt8} {broken : Bool}
    {r : Except ChannelError Text} (ran : readStream rest broken = (r, rest')) :
    streamLines rest broken = r.toOption.toList ++ streamLines rest' broken := by
  have nothing : streamLines [] broken = [] := by cases broken with | _ => rfl
  rw [readStream.eq_def] at ran
  split at ran
  · next split =>
    cases ran
    rw [streamLines, endedLines_of_line split, openLine_of_line split]
    rfl
  · next none =>
    rw [streamLines, endedLines_of_no_line none, openLine_of_no_line none]
    split at ran
    · next isBroken =>
      cases ran
      rw [nothing, isBroken]
      rfl
    · next whole =>
      rw [Bool.not_eq_true] at whole
      subst whole
      split at ran
      · next empty =>
        cases ran
        rw [nothing, empty]
        rfl
      · next nonempty =>
        cases ran
        rw [nothing, Bool.false_or, if_neg nonempty]
        rfl

theorem editorLines_readEditor {rest rest' : List UInt8} {broken : Bool}
    {r : Except ChannelError Text} (ran : readEditor rest broken = (r, rest')) :
    editorLines rest = r.toOption.toList ++ editorLines rest' := by
  rw [readEditor.eq_def] at ran
  split at ran
  · next split =>
    cases ran
    rw [editorLines, endedLines_of_line split, openLine_of_line split]
    rfl
  · next none =>
    rw [editorLines, endedLines_of_no_line none, openLine_of_no_line none]
    split at ran
    · next nonempty =>
      cases ran
      rw [Bool.not_eq_true'] at nonempty
      rw [nonempty]
      rfl
    · next empty =>
      cases ran
      rw [Bool.not_eq_true, Bool.not_eq_false'] at empty
      rw [empty]
      rfl

/-- A read takes the first line if it succeeds, and else it takes none. -/
theorem remaining_of_readUnless {input input' : Input} {stop : Option ChannelError} {name : Text}
    {r : Except ChannelError Text} (ran : input.readUnless stop name = (r, input')) :
    input.remaining = r.toOption.toList ++ input'.remaining := by
  cases stop with
  | some cause =>
    cases ran
    rfl
  | none =>
    cases input with
    | lines rest =>
      cases rest with
      | nil =>
        cases ran
        rfl
      | cons =>
        cases ran
        rfl
    | stream rest broken =>
      cases ran
      exact streamLines_readStream rfl
    | editor rest broken =>
      rw [readUnless, readLine] at ran
      split at ran
      · cases ran
        exact editorLines_readEditor rfl
      · cases ran
        rfl

end Input

end Pseudocode

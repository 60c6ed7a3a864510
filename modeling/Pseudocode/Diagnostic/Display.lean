import Pseudocode.Diagnostic.Basic
import Pseudocode.Text.Cells

/-!
# Diagnostics on a terminal

A failure is shown with its excerpt. Where colours are on, the lines below the heading form a block:
tabs become spaces, and every line is filled up to the widest, so that a background would be even.
-/

namespace Pseudocode

namespace Display

/-- A text with four spaces for each tab. -/
def expandTabs (t : Text) : Text :=
  ⟨t.bytes.flatMap fun b => if b = 9 then [32, 32, 32, 32] else [b]⟩

/-- Bytes with the carriage return before each newline removed. -/
def plainLineEnds : List UInt8 → List UInt8
  | 13 :: 10 :: rest => 10 :: plainLineEnds rest
  | b :: rest => b :: plainLineEnds rest
  | [] => []

/-- A text in the form that blocks are made from. -/
def prepare (t : Text) : Text := ⟨plainLineEnds (expandTabs t).bytes⟩

/-- Lines filled up with spaces to the widest. -/
def block (t : Text) : Text :=
  let lines := (prepare t).lines
  let widest := (lines.map Text.cells).foldl max 0
  Text.join "\n" (lines.map fun line => line ++ Text.replicate (widest - line.cells) " ")

/-- A text that ends with a newline. -/
def endLine (t : Text) : Text := if t.bytes.getLast? = some 10 then t else t ++ "\n"

/-- A text without the newlines at its end. -/
def dropLineEnds (t : Text) : Text := ⟨(t.bytes.reverse.dropWhile (· == 10)).reverse⟩

/-- What stands before the first newline, and what stands after it. -/
def cutLine (t : Text) : Text × Text :=
  (⟨t.bytes.takeWhile (· != 10)⟩, ⟨(t.bytes.dropWhile (· != 10)).drop 1⟩)

/-- A heading, and below it a block. -/
def framed (t : Text) : Text :=
  let (heading, rest) := cutLine t
  let rest := dropLineEnds rest
  prepare heading ++ "\n" ++ (if rest.isEmpty then Text.empty else block rest ++ "\n")

end Display

/-- A failure as a terminal shows it. -/
def Failure.display (colored : Bool) (f : Failure) (src : Text) : Text :=
  let t := Display.endLine (f.format src)
  if colored then Display.framed t else t

end Pseudocode

import Pseudocode.Text.Printable
import Pseudocode.Text.Utf8

/-!
# Channels

A program reads lines from an input channel and writes lines to an output channel. Input comes from
a list of lines, from a stream of bytes, or from a line editor, which shows a prompt before each
line. A stream may break with a device error where its bytes end.

Lines end at a newline. The stream removes every newline and carriage return from the end of a line;
the editor removes the newline and one carriage return before it. A last line without a newline
counts.
-/

namespace Pseudocode

/-- Why a channel fails. -/
inductive ChannelError where
  | noInput
  | canceled
  | deadline
  | device
  | brokenPipe
  | invalidPrompt
  deriving DecidableEq, Repr

namespace ChannelError

/-- The wording of a channel error. -/
def message : ChannelError → Text
  | noInput => "no more input"
  | canceled => "context canceled"
  | deadline => "context deadline exceeded"
  | device => "device error"
  | brokenPipe => "broken pipe"
  | invalidPrompt => "invalid prompt"

end ChannelError

/-- The bytes of a line and those after its newline, if there is a newline. -/
def splitLine? : List UInt8 → Option (List UInt8 × List UInt8)
  | [] => none
  | b :: rest =>
    if b = 10 then some ([], rest)
    else (splitLine? rest).map fun (line, after) => (b :: line, after)

/-- Bytes without the newlines and carriage returns at their end. -/
def trimLineEnd (bytes : List UInt8) : List UInt8 :=
  (bytes.reverse.dropWhile fun b => b == 10 || b == 13).reverse

/-- Bytes without one carriage return at their end. -/
def dropReturn (bytes : List UInt8) : List UInt8 :=
  if bytes.getLast? = some 13 then bytes.dropLast else bytes

/-- Where lines come from, with what is left of them. `broken` tells that a device error follows. -/
inductive Input where
  | lines (rest : List Text)
  | stream (rest : List UInt8) (broken : Bool)
  | editor (rest : List UInt8) (broken : Bool)
  deriving DecidableEq, Repr

namespace Input

/-- The bytes that are left. A list of lines has none. -/
def rest : Input → List UInt8
  | lines _ => []
  | stream bytes _ | editor bytes _ => bytes

/-- Read a line from a stream of bytes. What stands before a device error is lost. -/
def readStream (rest : List UInt8) (broken : Bool) : Except ChannelError Text × List UInt8 :=
  match splitLine? rest with
  | some (line, after) => (.ok ⟨trimLineEnd line⟩, after)
  | none =>
    if broken then (.error .device, [])
    else if rest.isEmpty then (.error .noInput, [])
    else (.ok ⟨trimLineEnd rest⟩, [])

/-- Read a line in the editor. What stands before a device error is a line. -/
def readEditor (rest : List UInt8) (broken : Bool) : Except ChannelError Text × List UInt8 :=
  match splitLine? rest with
  | some (line, after) => (.ok ⟨dropReturn line⟩, after)
  | none =>
    if !rest.isEmpty then (.ok ⟨rest⟩, [])
    else (.error (if broken then .device else .noInput), [])

/-- Whether the editor shows a prompt: only one without control and unassigned characters. -/
def acceptsPrompt (prompt : Text) : Bool := !prompt.chars.any isOther

/-- Read a line that is wanted for a variable. -/
def readLine (input : Input) (name : Text) : Except ChannelError Text × Input :=
  match input with
  | lines [] => (.error .noInput, lines [])
  | lines (line :: rest) => (.ok line, lines rest)
  | stream rest broken => let (line, rest) := readStream rest broken; (line, stream rest broken)
  | editor rest broken =>
    if acceptsPrompt (name ++ "? ") then
      let (line, rest) := readEditor rest broken
      (line, editor rest broken)
    else (.error .invalidPrompt, editor rest broken)

/-- Read a line, unless there is a reason to stop. Then nothing is taken from the channel. -/
def readUnless (input : Input) (stop : Option ChannelError) (name : Text) :
    Except ChannelError Text × Input :=
  match stop with
  | some e => (.error e, input)
  | none => input.readLine name

/-- The prompt that is shown when a line is wanted for a variable. -/
def promptUnless (input : Input) (stop : Option ChannelError) (name : Text) : Option Text :=
  match stop, input with
  | none, editor _ _ => if acceptsPrompt (name ++ "? ") then some (name ++ "? ") else none
  | _, _ => none

/-- The results of `count` reads from the `index`-th on, where the reads from number `cancelAt` on
find the host interrupted. -/
def readMany (cancelAt : Option Nat) (name : Text) :
    (index count : Nat) → Input → List (Except ChannelError Text)
  | _, 0, _ => []
  | index, count + 1, input =>
    let stop := match cancelAt with
      | some n => if n ≤ index then some .canceled else none
      | none => none
    let (line, input) := input.readUnless stop name
    line :: readMany cancelAt name (index + 1) count input

end Input

/-- What a program does at its channels, in order: it writes a line, asks for a line for a variable,
or has a prompt shown. -/
inductive Event where
  | line (t : Text)
  | request (name : Text)
  | prompt (t : Text)
  deriving DecidableEq, Repr

namespace Event

/-- The line that was written. -/
def line? : Event → Option Text
  | line t => some t
  | _ => none

/-- The variable that a line was wanted for. -/
def request? : Event → Option Text
  | request name => some name
  | _ => none

/-- What can be seen of an event. -/
def shown : Event → Text
  | line t => t ++ "\n"
  | request _ => Text.empty
  | prompt t => t

end Event

/-- The text that lines are written as. -/
def writtenText (lines : List Text) : Text := Text.concat (lines.map fun l => l ++ "\n")

end Pseudocode

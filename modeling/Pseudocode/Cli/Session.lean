import Pseudocode.Cli.Log
import Pseudocode.Diagnostic.Display
import Pseudocode.Program.Compile
import Pseudocode.Run.Exec
import Pseudocode.Settings.Basic

/-!
# Running programs for a user

A session has settings, a sequence of random numbers for each seed, and stamps for its log. Whatever
it does is seen on two screens: what a program prints, and what is reported about it.

The console reads lines, gathers them until they make a program, and runs it; the program reads its
own input from where the console has stopped. A source that more lines could complete is kept, any
other error is reported and what has been gathered is dropped.
-/

namespace Pseudocode.Cli

/-- What is seen of a command. -/
structure Screen where
  out : Text := Text.empty
  err : Text := Text.empty
  deriving Repr

namespace Screen

/-- One after the other. -/
def append (a b : Screen) : Screen := ⟨a.out ++ b.out, a.err ++ b.err⟩

instance : Append Screen := ⟨append⟩

/-- Something printed. -/
def print (t : Text) : Screen := { out := t }

/-- Something reported. -/
def note (t : Text) : Screen := { err := t }

end Screen

/-- How a command ends: well, with a failure that has been reported, or with one that has not. -/
inductive Status where
  | ok
  | reported
  | failed (message : Text)
  deriving DecidableEq, Repr

/-- What does not change while a command runs. -/
structure Session where
  settings : Settings
  verbose : Bool := false
  draws : Int → Nat → Number := fun _ _ => 0.5
  stamps : Stamps

/-- Limits for one run, and the seed of its random numbers. -/
structure Limits where
  maxSteps : Int
  timeout : Duration
  seed : Int

namespace Limits

/-- The limits that the settings give. -/
def ofSettings (s : Settings) : Limits := ⟨s.run.maxSteps, s.run.timeout, s.run.seed⟩

/-- The host that enforces limits. Limits that are not positive are none. A run has no clock, so a
number of steps stands in for the time: one step for each microsecond of the timeout. A run that
ends in fewer steps is not stopped, and one that goes on for ever is, but where it is stopped says
nothing of how long it took. -/
def host (l : Limits) (draws : Int → Nat → Number) : Host where
  maxSteps := l.maxSteps.toNat
  draws := draws l.seed
  deadline := if 0 < l.timeout.nanoseconds then some (l.timeout.nanoseconds.toNat / 1000) else none

end Limits

namespace Session

/-- A line of the log, if lines of its kind are wanted. -/
def log (s : Session) (line : LogLine) : Screen :=
  if s.verbose || s.settings.log.level == "debug" then
    let format := if s.settings.log.format == "json" then LogFormat.object else .pairs
    .note (format.lineText s.stamps line)
  else {}

/-- A failure with an excerpt of the source. -/
def report (s : Session) (f : Failure) (src : Text) : Screen :=
  .note (f.display s.settings.isColored src)

/-- Run a program, and give what is left of its input and why it failed if it did. -/
def run (s : Session) (limits : Limits) (p : Program) (input : Input) :
    Screen × Input × Option Failure :=
  let host := limits.host s.draws
  let named (message : Text) (values : List (Text × LogValue)) : Screen :=
    s.log ⟨message, ("run_id", s.stamps.runId) :: ("program", .text p.name) :: values⟩
  let (report, channels) := p.run host (.initial host input)
  let screen := named "run started" [("statements", .integer p.body.length)] ++
    .print (Text.concat (report.log.toList.map Event.shown))
  match report.error? with
  | none =>
    let finished : List (Text × LogValue) :=
      [("steps", .integer report.steps), ("elapsed", s.stamps.elapsed)]
    (screen ++ named "run finished" finished, channels.input, none)
  | some e =>
    let f := Failure.diagnosed none e.diagnostic
    (screen ++ named "run failed" [("steps", .integer report.steps), ("error", .text f.message)],
     channels.input, some f)

end Session

/-- What comes of a line that is fed to the console: what is seen, the source that is kept, and what
is left of the input. -/
structure Fed where
  screen : Screen
  buffer : Text
  input : Input

namespace Session

/-- Feed a line to the console. `more` tells that further lines may follow. -/
def feed (s : Session) (buffer line : Text) (more : Bool) (input : Input) : Fed :=
  let src := buffer ++ line
  if src.isBlank then ⟨{}, Text.empty, input⟩
  else match Program.ofSource src with
    | .error e =>
      if e.isIncomplete && more then ⟨{}, src, input⟩
      else ⟨s.report (.diagnosed none e.diagnostic) src, Text.empty, input⟩
    | .ok p =>
      let (screen, input, failure?) := s.run (.ofSettings s.settings) p input
      match failure? with
      | none => ⟨screen, Text.empty, input⟩
      | some f => ⟨screen ++ s.report f src, Text.empty, input⟩

/-- The console on a stream, for at most `fuel` lines. -/
def bufferedLoop (s : Session) (broken : Bool) :
    (fuel : Nat) → (buffer : Text) → List UInt8 → Screen × Status
  | 0, _, _ => ({}, .ok)
  | fuel + 1, buffer, rest =>
    match splitLine? rest with
    | some (line, after) =>
      let fed := s.feed buffer (⟨line⟩ ++ "\n") true (.stream after broken)
      let (screen, status) := bufferedLoop s broken fuel fed.buffer fed.input.rest
      (fed.screen ++ screen, status)
    | none =>
      if broken then ({}, .failed ("read error: " ++ ChannelError.device.message))
      else ((s.feed buffer ⟨rest⟩ false (.stream [] broken)).screen, .ok)

/-- The console on a stream. -/
def bufferedConsole (s : Session) (stream : List UInt8) (broken : Bool) : Screen × Status :=
  s.bufferedLoop broken (stream.length + 1) Text.empty stream

end Session

/-- The lines that were typed before, oldest first. -/
structure History where
  lines : List Text := []
  deriving Repr

namespace History

/-- How many lines are kept. -/
def capacity : Nat := 1000

/-- Keep the newest lines. -/
def trimmed (h : History) : History := ⟨h.lines.drop (h.lines.length - capacity)⟩

/-- Add a line, unless it is blank or the same as the last. -/
def add (h : History) (line : Text) : History :=
  let line := line.trim
  if line.isEmpty || h.lines.getLast? == some line then h else trimmed ⟨h.lines ++ [line]⟩

/-- The lines of a history file up to the first that is too long or no UTF-8. -/
def readLines : (fuel : Nat) → List UInt8 → List Text
  | 0, _ => []
  | fuel + 1, bytes =>
    match Input.readEditor bytes false with
    | (.ok line, rest) =>
      if line.bytes.length < 4096 && line.isUtf8 then line :: readLines fuel rest else []
    | (.error _, _) => []

/-- The history that a file holds. -/
def ofFile (content : Text) : History :=
  trimmed ⟨readLines (content.bytes.length + 1) content.bytes⟩

/-- The file that holds a history. -/
def fileText (h : History) : Text := writtenText h.lines

end History

namespace Session

/-- The console in the line editor, for at most `fuel` lines. -/
def interactiveLoop (s : Session) (broken : Bool) :
    (fuel : Nat) → (buffer : Text) → History → List UInt8 → Screen × Status × History
  | 0, _, history, _ => ({}, .ok, history)
  | fuel + 1, buffer, history, rest =>
    let prompt :=
      if buffer.isEmpty then s.settings.console.prompt else s.settings.console.continuePrompt
    if !Input.acceptsPrompt prompt then
      ({}, .failed ("read error: " ++ ChannelError.invalidPrompt.message), history)
    else
      match Input.readEditor rest broken with
      | (.ok line, rest) =>
        let fed := s.feed buffer (line ++ "\n") true (.editor rest broken)
        let (screen, status, history) :=
          interactiveLoop s broken fuel fed.buffer (history.add line) fed.input.rest
        (.print prompt ++ fed.screen ++ screen, status, history)
      | (.error .noInput, _) => (.print (prompt ++ "\n"), .ok, history)
      | (.error e, _) => (.print prompt, .failed ("read error: " ++ e.message), history)

/-- The console in the line editor. -/
def interactiveConsole (s : Session) (history : History) (typed : List UInt8) (broken : Bool) :
    Screen × Status × History :=
  s.interactiveLoop broken (typed.length + 2) Text.empty history typed

end Session

end Pseudocode.Cli

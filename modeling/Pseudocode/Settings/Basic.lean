import Pseudocode.Duration
import Pseudocode.Environment
import Pseudocode.Text.Quoted

/-!
# Settings

What a user can choose: limits for runs, the look of the console, and the log. A setting that a file
leaves out, or leaves empty, has a default; the default of the history file depends on the
environment.
-/

namespace Pseudocode

/-- Limits for runs. Zero steps and a timeout of zero mean no limit, a seed of zero any seed. -/
structure RunSettings where
  maxSteps : Int := 0
  timeout : Duration := .zero
  seed : Int := 0
  deriving DecidableEq, Repr

/-- The look of the console. -/
structure ConsoleSettings where
  prompt : Text := Text.empty
  continuePrompt : Text := Text.empty
  historyFile : Text := Text.empty
  color : Option Bool := none
  deriving DecidableEq, Repr

/-- What is logged, and in which form. -/
structure LogSettings where
  level : Text := Text.empty
  format : Text := Text.empty
  deriving DecidableEq, Repr

/-- All settings. -/
structure Settings where
  run : RunSettings := {}
  console : ConsoleSettings := {}
  log : LogSettings := {}
  deriving DecidableEq, Repr

/-- Why there are no settings. -/
inductive SettingsError where
  | notFound (path : Text)
  | unreadable
  | unknownKey (key path : Text)
  | negativeSteps (steps : Int)
  | negativeTimeout (timeout : Duration)
  | unknownLevel (level : Text)
  | unknownFormat (format : Text)
  deriving DecidableEq, Repr

namespace SettingsError

/-- The wording of an error. -/
def message : SettingsError → Text
  | notFound path => "config file not found: " ++ path
  | unreadable => "failed to parse config"
  | unknownKey key path => "unknown config key " ++ key.quoted ++ " in " ++ path
  | negativeSteps n => "interpreter.max_steps must not be negative, got " ++ Text.ofInt n
  | negativeTimeout d => "interpreter.timeout must not be negative, got " ++ d.text
  | unknownLevel l => "unknown log level " ++ l.quoted
  | unknownFormat f => "unknown log format " ++ f.quoted

end SettingsError

/-- A text, or another in place of an empty one. -/
def Text.orElse (t default : Text) : Text := if t.isEmpty then default else t

namespace Settings

/-- The history file in the home directory, if there is a home directory. -/
def defaultHistoryFile (env : Environment) : Text :=
  let home := env.get "HOME"
  if home.isEmpty then Text.empty else Path.join [home, ".algoritmo_history"]

/-- Fill in what was left out. -/
def withDefaults (env : Environment) (s : Settings) : Settings where
  run := s.run
  console := {
    prompt := s.console.prompt.orElse "algoritmo> "
    continuePrompt := s.console.continuePrompt.orElse "......... "
    historyFile := s.console.historyFile.orElse (defaultHistoryFile env)
    color := some (s.console.color.getD true) }
  log := {
    level := s.log.level.orElse "warn"
    format := s.log.format.orElse "text" }

/-- The settings without a file. -/
def default (env : Environment) : Settings := withDefaults env {}

/-- Replace references to environment variables in the history file. -/
def expandHistoryFile (env : Environment) (s : Settings) : Settings :=
  { s with console.historyFile := env.expand s.console.historyFile }

/-- The levels of a log. -/
def levels : List Text := ["debug", "info", "warn", "error"]

/-- The formats of a log. -/
def formats : List Text := ["text", "json"]

/-- Refuse what makes no sense. The first fault in this order is reported. -/
def validate (s : Settings) : Except SettingsError Settings :=
  if s.run.maxSteps < 0 then .error (.negativeSteps s.run.maxSteps)
  else if s.run.timeout.nanoseconds < 0 then .error (.negativeTimeout s.run.timeout)
  else if !levels.contains s.log.level then .error (.unknownLevel s.log.level)
  else if !formats.contains s.log.format then .error (.unknownFormat s.log.format)
  else .ok s

/-- Whether diagnostics are coloured. -/
def isColored (s : Settings) : Bool := s.console.color.getD true

end Settings

end Pseudocode

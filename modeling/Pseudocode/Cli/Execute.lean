import Pseudocode.Cli.Help
import Pseudocode.Cli.Request
import Pseudocode.Cli.Session
import Pseudocode.Llvm.Lower
import Pseudocode.Llvm.Printer
import Pseudocode.Program.Dump
import Pseudocode.Settings.Load
import Pseudocode.Yaml.Printer

/-!
# Carrying out a command

A command is a function from the system it is called on to what is seen, how it ends, and the files
after it. Settings are loaded before a command does anything, and not at all for a help page.
-/

namespace Pseudocode.Cli

/-- What a command is called on. `broken` tells that a device error follows the bytes of the
standard input, `terminal` that someone types them. -/
structure System where
  environment : Environment
  files : Files
  stdin : List UInt8 := []
  broken : Bool := false
  terminal : Bool := false
  draws : Int → Nat → Number := fun _ _ => 0.5
  stamps : Stamps

/-- What comes of a command. -/
structure Outcome where
  screen : Screen := {}
  status : Status := .ok
  files : Files

/-- The version of the program. -/
def version : Text := "dev"

/-- The tokens of a source in columns: place, kind, and text between quotes. -/
def tokenTable (tokens : List Token) : Text :=
  let rows := tokens.map fun t => (Location.optionText t.loc, (t.kind.name : Text), t.value.quoted)
  let places := (rows.map fun r => r.1.bytes.length).foldl max 0
  let kinds := (rows.map fun r => r.2.1.bytes.length).foldl max 0
  Text.concat (rows.map fun (place, kind, text) =>
    padRight (places + 2) place ++ padRight (kinds + 2) kind ++ text ++ "\n")

namespace System

/-- The source that an argument names: a file, or the standard input when it is a dash. Also what is
left of the standard input. -/
def source (sys : System) (arg : Text) : Except Text (Text × List UInt8) :=
  if arg = "-" then
    if sys.broken then .error ChannelError.device.message else .ok (⟨sys.stdin⟩, [])
  else match sys.files.read arg with
    | .ok src => .ok (src, sys.stdin)
    | .error e => .error (e.message arg)

/-- Where a program that is run takes its input from. A source from the standard input leaves none,
not even in the editor. -/
def programInput (sys : System) (arg : Text) (rest : List UInt8) : Input :=
  if sys.terminal ∧ arg ≠ "-" then .editor rest sys.broken else .stream rest sys.broken

end System

namespace Session

/-- Compile a source, or report why it is no program. -/
def compiling (s : Session) (src : Text) (k : Program → Screen × Status) : Screen × Status :=
  match Program.ofSource src with
  | .ok p => k p
  | .error e => (s.report (.diagnosed none e.diagnostic) src, .reported)

/-- Run a program from a source. -/
def runSource (s : Session) (limits : Limits) (src : Text) (input : Input) : Screen × Status :=
  s.compiling src fun p =>
    match s.run limits p input with
    | (screen, _, none) => (screen, .ok)
    | (screen, _, some f) => (screen ++ s.report f src, .reported)

/-- Print the tokens of a source. -/
def printTokens (s : Session) (src : Text) : Screen × Status :=
  match scan src with
  | .ok tokens => (.print (tokenTable tokens), .ok)
  | .error e => (s.report (.diagnosed none e.diagnostic) src, .reported)

/-- Print the syntax tree of a source. -/
def printTree (s : Session) (src : Text) : Screen × Status :=
  s.compiling src fun p => (.print p.toYaml.document, .ok)

/-- Print the code of a source. -/
def printCode (s : Session) (src : Text) : Screen × Status :=
  s.compiling src fun p =>
    match p.lower with
    | .ok m => (s.log ⟨"ir generated", [("program", .text p.name)]⟩ ++ .print (m.text ++ "\n"), .ok)
    | .error e => (s.report (.diagnosed none e.diagnostic) src, .reported)

/-- Do something with the source that the first argument names. -/
def withSource (sys : System) (args : List Text)
    (k : Text → Text → List UInt8 → Screen × Status) : Screen × Status :=
  let arg := args.headD Text.empty
  match sys.source arg with
  | .ok (src, rest) => k arg src rest
  | .error message => ({}, .failed message)

/-- The console. In the line editor there is a history, which is kept in a file. -/
def console (s : Session) (sys : System) : Outcome :=
  if !sys.terminal then
    let (screen, status) := s.bufferedConsole sys.stdin sys.broken
    ⟨screen, status, sys.files⟩
  else
    let path := s.settings.console.historyFile
    let before : History := match sys.files.read path with
      | .ok content => .ofFile content
      | .error _ => {}
    let (screen, status, history) := s.interactiveConsole before sys.stdin sys.broken
    ⟨screen, status, (sys.files.write path history.fileText).toOption.getD sys.files⟩

end Session

/-- The limits of a run: flags win over settings. -/
def Options.limits (o : Options) (s : Settings) : Limits where
  maxSteps := o.maxSteps.getD s.run.maxSteps
  timeout := o.timeout.getD s.run.timeout
  seed := o.seed.getD s.run.seed

/-- Do what a command does, once settings are there. -/
def Session.perform (s : Session) (sys : System) (c : Command) (o : Options) (args : List Text) :
    Outcome :=
  let seen (r : Screen × Status) : Outcome := ⟨r.1, r.2, sys.files⟩
  match c with
  | .run => seen (Session.withSource sys args fun arg src rest =>
      s.runSource (o.limits s.settings) src (sys.programInput arg rest))
  | .tokens => seen (Session.withSource sys args fun _ src _ => s.printTokens src)
  | .ast => seen (Session.withSource sys args fun _ src _ => s.printTree src)
  | .ir => seen (Session.withSource sys args fun _ src _ => s.printCode src)
  | .repl => s.console sys
  | .version => seen (.print ("algoritmo " ++ version ++ "\n"), .ok)
  | .root | .help | .completion => seen (.print c.helpPage, .ok)

/-- The settings for a command: those of the file that a flag names, or else those of the
environment. -/
def Options.settings (o : Options) (sys : System) : Except SettingsError Settings :=
  if o.config.isEmpty then Settings.loadFromEnvironment sys.environment sys.files
  else Settings.load sys.environment sys.files o.config

/-- A word as it is shown in a list of words: between backquotes where that is possible. -/
def listedWord (t : Text) : Text :=
  let isPlain (p : Char × List UInt8) : Bool :=
    !(p.1 == '\x60' || p.1.toNat == 127 || p.1.toNat == 0xFEFF || (p.1.toNat < 32 && p.1 != '\t') ||
      (p.1 == Utf8.replacement && p.2.length == 1))
  if t.segments.all isPlain then "\x60" ++ t ++ "\x60" else t.quoted

/-- Whether a request may look at the standard input: the console, a source that is read from there,
or a program that reads. -/
def Request.wantsInput (sys : System) : Request → Bool
  | .perform .repl _ _ => true
  | .perform .run _ args | .perform .tokens _ args | .perform .ast _ args | .perform .ir _ args =>
    args.any fun arg => arg == "-" || (match sys.files.read arg with
      | .ok src => ((scan src).toOption.getD []).any fun t => t.isKeyword .leer
      | .error _ => false)
  | _ => false

/-- Carry out a request. -/
def Request.execute (sys : System) : Request → Outcome
  | .help c => ⟨.print c.helpPage, .ok, sys.files⟩
  | .unknownTopic ws =>
    let heading := "Unknown help topic [" ++ Text.join " " (ws.map listedWord) ++ "]\n"
    ⟨.print (heading ++ Command.root.usagePage Command.sharedFlags), .ok, sys.files⟩
  | .perform c o args =>
    match o.settings sys with
    | .error e => ⟨{}, .failed e.message, sys.files⟩
    | .ok settings =>
      let s : Session := ⟨settings, o.verbose, sys.draws, sys.stamps⟩
      let loaded := s.log ⟨"configuration loaded",
        [("max_steps", .integer settings.run.maxSteps),
         ("timeout", .duration settings.run.timeout)]⟩
      let outcome := s.perform sys c o args
      { outcome with screen := loaded ++ outcome.screen }

/-- What comes of calling the program with arguments. -/
def execute (sys : System) (args : List Text) : Outcome :=
  match Request.ofArguments args with
  | .error e => ⟨{}, .failed e.message, sys.files⟩
  | .ok request => request.execute sys

end Pseudocode.Cli

import Pseudocode.Cli.Command

/-!
# Help pages

A help page describes a command, how it is called, the commands below it, and its flags.
-/

namespace Pseudocode.Cli

namespace Flag

/-- What a flag is for. -/
def usage (c : Command) : Flag → Text
  | config => "config file (default: $ALGORITMO_CONFIG or ./algoritmo.toml)"
  | help => "help for " ++ c.name
  | maxSteps => "stop the program after this many statements and loop iterations (0 disables)"
  | seed => "seed for aleatorio and azar (0 picks one from the clock)"
  | timeout => "stop the program after this long (0 disables)"
  | verbose => "debug logging"

/-- A flag with its letter and the name of its value. -/
def synopsis (f : Flag) : Text :=
  let value : Text := match f.valueName? with
    | some v => " " ++ v
    | none => Text.empty
  (match f.letter? with
    | some letter => "  -" ++ Text.ofChars [letter] ++ ", --" ++ f.name
    | none => "      --" ++ f.name) ++ value

end Flag

/-- A text filled up with spaces to a width. -/
def padRight (width : Nat) (t : Text) : Text := t ++ Text.replicate (width - t.bytes.length) " "

/-- Flags and what they are for, in two columns. -/
def flagTable (c : Command) (flags : List Flag) : Text :=
  let width := (flags.map fun f => f.synopsis.bytes.length).foldl max 0
  Text.join "\n" (flags.map fun f => padRight (width + 3) f.synopsis ++ f.usage c)

namespace Command

/-- A command in a few words. -/
def summary : Command → Text
  | root => "Spanish pseudocode interpreter"
  | run => "Run a program"
  | repl => "Interactive console"
  | tokens => "Print the tokens of a program"
  | ast => "Print the syntax tree of a program as YAML"
  | ir => "Print the LLVM IR of a numeric program"
  | version => "Print the version"
  | help => "Help about any command"
  | completion => "Generate the autocompletion script for the specified shell"

/-- What a command does, line by line. -/
def description : Command → List Text
  | root =>
    ["algoritmo runs programs written in Spanish pseudocode",
     "(Algoritmo ... FinAlgoritmo).",
     "",
     "Commands:",
     "  run      - run a program",
     "  repl     - interactive console",
     "  tokens   - print the tokens of a program",
     "  ast      - print the syntax tree as YAML",
     "  ir       - generate LLVM IR for the numeric subset"]
  | run =>
    ["Run a program read from a file, or from standard input when the",
     "argument is \"-\". Leer reads from the terminal through a line editor, or",
     "line by line from standard input when it is not a terminal."]
  | repl =>
    ["Read programs one line at a time. A program runs as soon as it is",
     "complete (FinAlgoritmo); lines are accumulated while it is not."]
  | ir =>
    ["Lower a program to LLVM IR. Only numbers, booleans, the control",
     "statements, Escribir and the math functions are supported; arrays, Leer and",
     "text values are rejected.",
     "",
     "The compiled program differs from the interpreter in two ways:",
     "  - variables start at 0, so reading one that was only assigned in a branch",
     "    not taken prints 0 instead of failing with \"undefined variable\"",
     "  - booleans are numbers, so Escribir prints 1 and 0 instead of verdadero",
     "    and falso"]
  | help =>
    ["Help provides help for any command in the application.",
     "Simply type algoritmo help [path to command] for full details."]
  | completion =>
    ["Generate the autocompletion script for algoritmo for the specified shell.",
     "See each sub-command's help for details on how to use the generated script."]
  | c => [c.summary]

/-- The arguments of a command. -/
def arguments : Command → Text
  | run | tokens | ast | ir => " <file|->"
  | help => " [command]"
  | _ => Text.empty

/-- The names below a command that its help lists, with their summaries. -/
def listed : Command → List (Text × Text)
  | root =>
    [ast, completion, help, ir, repl, run, tokens, version].map fun c =>
      ((c.name : Text), c.summary)
  | completion =>
    ["bash", "fish", "powershell", "zsh"].map fun shell =>
      (Text.ofString shell, "Generate the autocompletion script for " ++ Text.ofString shell)
  | _ => []

/-- The parts of a page that say how a command is called, with blank lines between them. The root
has no flags from above. -/
def usageParts (c : Command) (own : List Flag) : List Text :=
  let calls : List Text :=
    (if c.isRunnable then ["  " ++ c.path ++ c.arguments ++ " [flags]"] else []) ++
      (if c.listed.isEmpty then [] else ["  " ++ c.path ++ " [command]"])
  let commands := c.listed.map fun (n, s) => "  " ++ padRight 11 n ++ " " ++ s
  let part (title : Text) (lines : List Text) : List Text :=
    if lines.isEmpty then [] else [Text.join "\n" (title :: lines)]
  let flagSections := match c with
    | root => part "Flags:" [flagTable c own]
    | _ => part "Flags:" [flagTable c own] ++ part "Global Flags:" [flagTable c sharedFlags]
  let more : List Text :=
    if c.listed.isEmpty then []
    else ["Use \"" ++ c.path ++ " [command] --help\" for more information about a command."]
  part "Usage:" calls ++ part "Available Commands:" commands ++ flagSections ++ more

/-- How a command is called. -/
def usagePage (c : Command) (own : List Flag) : Text := Text.join "\n\n" (c.usageParts own) ++ "\n"

/-- The flags that the help of a command lists as its own. -/
def shownFlags : Command → List Flag
  | root => [.config, .help, .verbose]
  | c => c.ownFlags

/-- The help page of a command. -/
def helpPage (c : Command) : Text :=
  Text.join "\n" c.description ++ "\n\n" ++ c.usagePage c.shownFlags

end Command

end Pseudocode.Cli

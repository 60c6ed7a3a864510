import Pseudocode.Text.Quoted

/-!
# Commands

The commands of the program, what they are for, and the flags that each takes.
-/

namespace Pseudocode.Cli

/-- The commands. The root is the program called without a command. -/
inductive Command where
  | root
  | run | repl | tokens | ast | ir | version
  | help | completion
  deriving DecidableEq, Repr

/-- The flags. -/
inductive Flag where
  | config | help | maxSteps | seed | timeout | verbose
  deriving DecidableEq, Repr

namespace Flag

/-- The name of a flag, which stands after two dashes. -/
def name : Flag → String
  | config => "config"
  | help => "help"
  | maxSteps => "max-steps"
  | seed => "seed"
  | timeout => "timeout"
  | verbose => "verbose"

/-- The letter that stands for a flag after one dash. -/
def letter? : Flag → Option Char
  | help => some 'h'
  | verbose => some 'v'
  | _ => none

/-- Whether a flag is switched on by naming it. Any other flag needs a value. -/
def isSwitch : Flag → Bool
  | help | verbose => true
  | _ => false

/-- What the value of a flag is called. -/
def valueName? : Flag → Option String
  | config => some "string"
  | maxSteps | seed => some "int"
  | timeout => some "duration"
  | help | verbose => none

/-- How messages name a flag. -/
def shownName (f : Flag) : Text :=
  match f.letter? with
  | some letter => "-" ++ Text.ofChars [letter] ++ ", --" ++ f.name
  | none => "--" ++ f.name

end Flag

namespace Command

/-- The name of a command. -/
def name : Command → String
  | root => "algoritmo"
  | run => "run"
  | repl => "repl"
  | tokens => "tokens"
  | ast => "ast"
  | ir => "ir"
  | version => "version"
  | help => "help"
  | completion => "completion"

/-- The commands below the root, in the order in which they are suggested. -/
def all : List Command := [run, repl, tokens, ast, ir, version, help, completion]

/-- The command with a name. -/
def ofName? (name : Text) : Option Command := all.find? fun c => Text.ofString c.name == name

/-- The words that call a command. -/
def path : Command → Text
  | root => "algoritmo"
  | c => "algoritmo " ++ c.name

/-- Whether a command does something by itself. The others show their help. -/
def isRunnable : Command → Bool
  | root | completion => false
  | _ => true

/-- The flags that only a command and its own help know. -/
def ownFlags : Command → List Flag
  | run => [.help, .maxSteps, .seed, .timeout]
  | _ => [.help]

/-- The flags that every command knows. -/
def sharedFlags : List Flag := [.config, .verbose]

/-- The flags that a command knows. -/
def flags (c : Command) : List Flag := c.ownFlags ++ sharedFlags

/-- How many arguments a command takes, if that is fixed. -/
def arity? : Command → Option Nat
  | run | tokens | ast | ir => some 1
  | repl | version => some 0
  | root | help | completion => none

end Command

end Pseudocode.Cli

import Pseudocode.Settings.Basic
import Pseudocode.Text.Case
import Pseudocode.Toml.Document

/-!
# One setting

Each setting stands in a group and has a name there. In a file a group is a table, a name is matched
ignoring case, and the value has to be of the kind of the setting: an integer, a text, a truth
value, or a duration, which is written as a text.
-/

namespace Pseudocode.Settings

/-- What is set. -/
inductive Setting where
  | maxSteps | timeout | seed | prompt | continuePrompt | historyFile | color | level | format
  deriving DecidableEq, Repr

/-- What a setting holds. The colour may be left open. -/
inductive Held where
  | integer (i : Int)
  | duration (d : Duration)
  | text (t : Text)
  | truth (b : Option Bool)
  deriving DecidableEq, Repr

namespace Setting

/-- All settings. -/
def all : List Setting :=
  [maxSteps, timeout, seed, prompt, continuePrompt, historyFile, color, level, format]

/-- The name of the group that a setting is in. -/
def group : Setting → Text
  | maxSteps | timeout | seed => "interpreter"
  | prompt | continuePrompt | historyFile | color => "console"
  | level | format => "log"

/-- The name of a setting in its group. -/
def name : Setting → Text
  | maxSteps => "max_steps"
  | timeout => "timeout"
  | seed => "seed"
  | prompt => "prompt"
  | continuePrompt => "continue_prompt"
  | historyFile => "history_file"
  | color => "color"
  | level => "level"
  | format => "format"

/-- What a setting holds. -/
def held (s : Settings) : Setting → Held
  | maxSteps => .integer s.run.maxSteps
  | timeout => .duration s.run.timeout
  | seed => .integer s.run.seed
  | prompt => .text s.console.prompt
  | continuePrompt => .text s.console.continuePrompt
  | historyFile => .text s.console.historyFile
  | color => .truth s.console.color
  | level => .text s.log.level
  | format => .text s.log.format

/-- Let a setting hold something. It can only hold what is of its kind. -/
def put (s : Settings) : Setting → Held → Settings
  | maxSteps, .integer i => { s with run.maxSteps := i }
  | timeout, .duration d => { s with run.timeout := d }
  | seed, .integer i => { s with run.seed := i }
  | prompt, .text t => { s with console.prompt := t }
  | continuePrompt, .text t => { s with console.continuePrompt := t }
  | historyFile, .text t => { s with console.historyFile := t }
  | color, .truth b => { s with console.color := b }
  | level, .text t => { s with log.level := t }
  | format, .text t => { s with log.format := t }
  | _, _ => s

/-- What a node of a document says for a setting, if it has the right kind. An integer counts as its
text where a duration is wanted, so that a zero needs no quotes. -/
def read? : Setting → Toml.Node → Option Held
  | maxSteps, .value (.integer i) | seed, .value (.integer i) => some (.integer i)
  | timeout, .value (.string t) => (Duration.ofText t).toOption.map .duration
  | timeout, .value (.integer i) => (Duration.ofText (Text.ofInt i)).toOption.map .duration
  | prompt, .value (.string t) | continuePrompt, .value (.string t)
  | historyFile, .value (.string t) | level, .value (.string t)
  | format, .value (.string t) => some (.text t)
  | color, .value (.boolean b) => some (.truth (some b))
  | _, _ => none

/-- Whether a name stands for the group of a setting. -/
def isIn (k : Setting) (name : Text) : Bool := k.group.sameFold name

/-- The setting that a name in a group stands for. -/
def named? (group name : Text) : Option Setting :=
  all.find? fun k => k.isIn group && k.name.sameFold name

/-- Whether a name stands for a group. -/
def isGroup (name : Text) : Bool := all.any fun k => k.isIn name

/-- Whether a key is that of a group or of a setting. -/
def isKnown : Toml.Key → Bool
  | [group] => isGroup group
  | [group, name] => (named? group name).isSome
  | _ => false

end Setting

end Pseudocode.Settings

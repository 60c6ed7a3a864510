import Pseudocode.Cli.Command
import Pseudocode.Duration
import Pseudocode.Number.Integer
import Pseudocode.Text.Case

/-!
# What the arguments ask for

Arguments are read in two passes. The first looks for the name of a command among them; flags may
stand before or after it, so an argument that looks like the value of a flag is passed over. The
second reads the flags that the command knows, and what is left are its arguments.

A command that is called with `--help`, or that does nothing by itself, shows its help; only after
that are the arguments counted.
-/

namespace Pseudocode.Cli

/-- The flags as they were given. -/
structure Options where
  help : Bool := false
  verbose : Bool := false
  config : Text := Text.empty
  maxSteps : Option Int := none
  seed : Option Int := none
  timeout : Option Duration := none
  deriving Repr

/-- Why a value does not fit its flag. -/
inductive ValueFault where
  | integer (fault : IntegerFault)
  | boolean
  | duration (error : DurationError)
  deriving DecidableEq, Repr

namespace ValueFault

/-- The wording of a fault. -/
def message (value : Text) : ValueFault → Text
  | integer .malformed => "strconv.ParseInt: parsing " ++ value.quoted ++ ": invalid syntax"
  | integer .outOfRange => "strconv.ParseInt: parsing " ++ value.quoted ++ ": value out of range"
  | boolean => "strconv.ParseBool: parsing " ++ value.quoted ++ ": invalid syntax"
  | duration e => e.message

end ValueFault

/-- Why the arguments ask for nothing. -/
inductive UsageError where
  | unknownCommand (name : Text) (command : Command) (suggestions : List Command)
  | badFlag (arg : Text)
  | unknownFlag (name : Text)
  | unknownLetter (letter : Char) (letters : Text)
  | valueMissing (arg : Text)
  | badValue (flag : Flag) (value : Text) (fault : ValueFault)
  | argumentCount (wanted given : Nat)
  deriving DecidableEq, Repr

namespace UsageError

/-- A character between single quotes. -/
def quotedLetter (c : Char) : Text :=
  if c = '\'' then "'\\''"
  else if c = '"' then "'\"'"
  else "'" ++ Text.ofChars (Text.quotedChar c) ++ "'"

/-- The commands that may have been meant. -/
def suggestionText (cs : List Command) : Text :=
  if cs.isEmpty then Text.empty
  else "\n\nDid you mean this?\n" ++ Text.concat (cs.map fun c => "\t" ++ c.name ++ "\n")

/-- The wording of an error. -/
def message : UsageError → Text
  | unknownCommand name c suggestions =>
    "unknown command " ++ name.quoted ++ " for " ++ c.path.quoted ++ suggestionText suggestions
  | badFlag arg => "bad flag syntax: " ++ arg
  | unknownFlag name => "unknown flag: --" ++ name
  | unknownLetter c letters => "unknown shorthand flag: " ++ quotedLetter c ++ " in -" ++ letters
  | valueMissing arg => "flag needs an argument: " ++ arg
  | badValue f value fault =>
    "invalid argument " ++ value.quoted ++ " for " ++ f.shownName.quoted ++ " flag: " ++
      fault.message value
  | argumentCount wanted given =>
    "accepts " ++ Text.ofNat wanted ++ " arg(s), received " ++ Text.ofNat given

end UsageError

/-- The dash that flags start with. -/
def dash : UInt8 := 45

/-- The sign between a flag and its value. -/
def equals : UInt8 := 61

/-! ### Flags -/

namespace Options

/-- The truth value that a text spells. -/
def boolean? (t : Text) : Option Bool :=
  if (["1", "t", "T", "true", "True", "TRUE"] : List Text).contains t then some true
  else if (["0", "f", "F", "false", "False", "FALSE"] : List Text).contains t then some false
  else none

/-- Give a flag a value. -/
def set (o : Options) (f : Flag) (value : Text) : Except UsageError Options :=
  let integer : Except UsageError Int :=
    (Integer.ofChars value.chars).mapError fun e => .badValue f value (.integer e)
  let boolean : Except UsageError Bool := match boolean? value with
    | some b => .ok b
    | none => .error (.badValue f value .boolean)
  match f with
  | .config => .ok { o with config := value }
  | .help => boolean.map fun b => { o with help := b }
  | .verbose => boolean.map fun b => { o with verbose := b }
  | .maxSteps => integer.map fun i => { o with maxSteps := some i }
  | .seed => integer.map fun i => { o with seed := some i }
  | .timeout =>
    match Duration.ofText value with
    | .ok d => .ok { o with timeout := some d }
    | .error e => .error (.badValue f value (.duration e))

/-- Read letters after one dash. All flags with a letter are switches, which may be switched off by
a value after an equals sign. -/
def addLetters (known : List Flag) : List UInt8 → Options → Except UsageError Options
  | [], o => .ok o
  | b :: rest, o =>
    let letter := Char.ofNat b.toNat
    match known.find? (·.letter? == some letter) with
    | none => .error (.unknownLetter letter ⟨b :: rest⟩)
    | some f =>
      match rest with
      | e :: v :: value =>
        if e = equals then o.set f ⟨v :: value⟩
        else do addLetters known (e :: v :: value) (← o.set f "true")
      | rest => do addLetters known rest (← o.set f "true")

/-- What stands before the first equals sign, and what stands after it, if there is one. -/
def splitEquals (bytes : List UInt8) : Text × Option Text :=
  let name := bytes.takeWhile (· != equals)
  match bytes.dropWhile (· != equals) with
  | [] => (⟨name⟩, none)
  | _ :: value => (⟨name⟩, some ⟨value⟩)

/-- Read arguments, and gather those that are not flags. After two dashes no argument is a flag. -/
def read (known : List Flag) : List Text → Options → Except UsageError (Options × List Text)
  | [], o => .ok (o, [])
  | arg :: rest, o =>
    match arg.bytes with
    | [45, 45] => .ok (o, rest)
    | 45 :: 45 :: name =>
      let head := name.headD equals
      if head = dash ∨ head = equals then .error (.badFlag arg)
      else
        let (name, value?) := splitEquals name
        match known.find? fun f => Text.ofString f.name == name, value?, rest with
        | none, _, _ => .error (.unknownFlag name)
        | some f, some value, rest => do read known rest (← o.set f value)
        | some f, none, rest =>
          if f.isSwitch then do read known rest (← o.set f "true")
          else match rest with
            | [] => .error (.valueMissing arg)
            | value :: rest => do read known rest (← o.set f value)
    | 45 :: b :: letters => do read known rest (← addLetters known (b :: letters) o)
    | _ => do
      let (o, args) ← read known rest o
      .ok (o, arg :: args)

end Options

/-! ### Commands -/

/-- Whether an argument is taken for a flag whose value is the next argument. Only the switches that
every command knows are known to have none. -/
def wantsValue (arg : Text) : Bool :=
  let isKnown (p : Flag → Bool) : Bool := Command.sharedFlags.any fun f => f.isSwitch && p f
  if arg.bytes.contains equals then false
  else match arg.bytes with
    | 45 :: 45 :: name => !isKnown fun f => (Text.ofString f.name).bytes == name
    | [45, b] => !isKnown fun f => f.letter? == some (Char.ofNat b.toNat)
    | _ => false

/-- Whether an argument starts with a dash. -/
def isDashed (arg : Text) : Bool := arg.bytes.head? == some dash

/-- The arguments that are neither flags nor taken for their values. When only one argument is left
after a flag that wants a value, it is the value. -/
def words : List Text → List Text
  | [] => []
  | arg :: rest =>
    if arg = "--" then []
    else if wantsValue arg then
      match rest with
      | [] | [_] => []
      | _ :: rest => words rest
    else if arg.isEmpty || isDashed arg then words rest
    else arg :: words rest

/-- The arguments without the first that is a given word. -/
def eraseWord (word : Text) : List Text → List Text
  | [] => []
  | arg :: rest =>
    if arg = "--" then arg :: rest
    else if wantsValue arg then
      match rest with
      | [] => [arg]
      | value :: rest => arg :: value :: eraseWord word rest
    else if !isDashed arg && arg = word then rest
    else arg :: eraseWord word rest

/-- The least number of bytes to insert, remove or replace that turns one list into the other. -/
def editDistance (a b : List UInt8) : Nat :=
  let next (row : List Nat) (x : UInt8) : List Nat :=
    let step (state : List Nat × Nat) (cell : UInt8 × Nat × Nat) : List Nat × Nat :=
      let (y, diagonal, above) := cell
      let here := if x = y then diagonal else 1 + min (min above state.2) diagonal
      (here :: state.1, here)
    let first := row.headD 0 + 1
    let (cells, _) := (b.zip (row.zip (row.drop 1))).foldl step ([first], first)
    cells.reverse
  ((a.foldl next (List.range (b.length + 1))).getLastD 0)

/-- The commands whose name is close to a word, or starts with it. The help command is not
suggested. -/
def suggestions (word : Text) : List Command :=
  let isClose (c : Command) : Bool :=
    let name := (Text.ofString c.name).lower.bytes
    decide (editDistance word.lower.bytes name ≤ 2) || word.lower.bytes.isPrefixOf name
  Command.all.filter fun c => c ≠ .help && isClose c

/-- The command that arguments name, and the arguments without its name. -/
def findCommand (args : List Text) : Except UsageError (Command × List Text) :=
  match words args with
  | [] => .ok (.root, args)
  | word :: _ =>
    match Command.ofName? word with
    | some c => .ok (c, eraseWord word args)
    | none => .error (.unknownCommand word .root (suggestions word))

/-- What the arguments ask for: a help page, help on something that is no command, or a command with
its options and arguments. -/
inductive Request where
  | help (command : Command)
  | unknownTopic (words : List Text)
  | perform (command : Command) (options : Options) (args : List Text)
  deriving Repr

/-- Refuse arguments that a command does not take. -/
def checkArguments (c : Command) (args : List Text) : Except UsageError Unit :=
  match c.arity?, args with
  | some 0, arg :: _ => .error (.unknownCommand arg c [])
  | some n, args => if args.length = n then .ok () else .error (.argumentCount n args.length)
  | none, _ => .ok ()

/-- What the arguments ask for. -/
def Request.ofArguments (args : List Text) : Except UsageError Request := do
  let (c, rest) ← findCommand args
  let (options, args) ← Options.read c.flags rest {}
  if options.help || !c.isRunnable then return .help c
  checkArguments c args
  match c with
  | .help =>
    match findCommand args with
    | .ok (topic, _) => return .help topic
    | .error _ => return .unknownTopic args
  | c => return .perform c options args

end Pseudocode.Cli

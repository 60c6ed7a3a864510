import Pseudocode.Cli.Execute
import Pseudocode.Random
import Std.Time.Format

/-!
# The program

The outermost layer: it gathers the arguments, the environment, the files that the command may look
at and the standard input, carries out the command, and shows what came of it.
-/

namespace Pseudocode.Main

open Pseudocode.Cli

/-- Bytes as a text. -/
def ofBytes (bytes : ByteArray) : Text := ⟨bytes.toList⟩

/-- A text as bytes. -/
def toBytes (t : Text) : ByteArray := ⟨t.bytes.toArray⟩

/-- A text as a string. -/
def toString (t : Text) : String := String.ofList t.chars

/-- Everything that a stream still holds. -/
partial def readAll (stream : IO.FS.Stream) (before : ByteArray) : IO ByteArray := do
  let chunk ← stream.read 65536
  if chunk.isEmpty then return before else readAll stream (before ++ chunk)

/-- The variables with these names that are set. -/
def readEnvironment (names : List Text) : IO Environment := do
  let found ← names.eraseDups.filterMapM fun name => do
    return (← IO.getEnv (toString name)).map fun value => (name, Text.ofString value)
  return ⟨found⟩

/-- The pieces of a path from the root. -/
def place (directory path : Text) : List Text :=
  let whole := if Path.isAbsolute path then path else directory ++ "/" ++ path
  (Path.pieces (Path.clean whole)).filter fun piece => !piece.isEmpty

/-- The file system with what is at a path. What cannot be read is taken for a directory. -/
def withPath (directory : Text) (fs : Files) (path : Text) : IO Files := do
  let here := place directory path
  if path.isEmpty || fs.isFile here then return fs
  try
    let content ← IO.FS.readBinFile (toString path)
    return { fs with contents := (here, ofBytes content) :: fs.contents }
  catch
    | .noFileOrDirectory .. => return fs
    | _ => return { fs with contents := (here ++ [Text.ofString "."], Text.empty) :: fs.contents }

/-- What the log shows of this run. -/
def stamps (elapsed : Nat) : IO Stamps := do
  let instant ← Std.Time.Timestamp.now
  let now := Std.Time.DateTime.ofTimestamp instant Std.Time.TimeZone.ZoneRules.UTC
  let id ← IO.getRandomBytes 16
  let digits := id.toList.flatMap fun b => Text.lowerHex 2 b.toNat
  return ⟨.text now.toISO8601String, .text (Text.ofChars digits), .duration ⟨(elapsed : Int)⟩⟩

/-- Write the files that a command has changed. -/
def store (before after : Files) : IO Unit :=
  for (file, content) in after.contents do
    unless before.contents.lookup file == some content do
      try IO.FS.writeBinFile (toString ("/" ++ Text.join "/" file)) (toBytes content)
      catch _ => pure ()

/-- The settings file that is asked for, the default ones, and the arguments. -/
def candidates (env : Environment) (args : List Text) : List Text :=
  let asked := match Request.ofArguments args with
    | .ok (.perform _ o _) => [o.config, env.get "ALGORITMO_CONFIG"]
    | _ => []
  asked.map env.expand ++ Settings.defaultPaths env ++ args

/-- The system that a command is called on. Its random numbers are those of this library's own
generator, so a seed gives other numbers here than with another generator. -/
def gather (args : List Text) : IO System := do
  let start ← IO.monoNanosNow
  let directory := Text.ofString (← IO.currentDir).toString
  let named : List Text := ["HOME", "XDG_CONFIG_HOME", "ALGORITMO_CONFIG"]
  let env ← readEnvironment (named ++ args.flatMap Environment.references)
  let mentioned := env.get "ALGORITMO_CONFIG" :: args
  let env ← readEnvironment (named ++ mentioned.flatMap Environment.references)
  let workingDirectory := place directory "."
  let files ← (candidates env args).foldlM (withPath directory) { workingDirectory }
  let inside := files.contents.flatMap fun (_, content) => Environment.references content
  let env ← readEnvironment (env.bindings.map (·.1) ++ inside)
  let seed : Nat := (← IO.getRandomBytes 8).toList.foldl (fun n b => 256 * n + b.toNat) 0
  let sys : System := {
    environment := env
    files
    draws := fun s => Random.draw (if s = 0 then (seed : Int) else s)
    stamps := ← stamps ((← IO.monoNanosNow) - start) }
  match Request.ofArguments args with
  | .ok (.perform c o words) =>
    let request := Request.perform c o words
    let files ← match o.settings sys with
      | .ok s => withPath directory sys.files s.console.historyFile
      | .error _ => pure sys.files
    let stdin ← IO.getStdin
    let typed ←
      if request.wantsInput sys then readAll stdin ByteArray.empty else pure ByteArray.empty
    return { sys with files, stdin := typed.toList, terminal := ← stdin.isTty }
  | _ => return sys

end Pseudocode.Main

open Pseudocode Pseudocode.Main in
/-- Carry out the command that the arguments name. -/
def main (args : List String) : IO UInt32 := do
  let args := args.map Text.ofString
  let sys ← gather args
  let outcome := Cli.execute sys args
  (← IO.getStdout).write (toBytes outcome.screen.out)
  (← IO.getStderr).write (toBytes outcome.screen.err)
  store sys.files outcome.files
  match outcome.status with
  | .ok => return 0
  | .reported => return 1
  | .failed message =>
    IO.eprintln ("algoritmo: " ++ Main.toString message)
    return 1

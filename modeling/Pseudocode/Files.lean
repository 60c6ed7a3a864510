import Pseudocode.Path

/-!
# Files

A file system holds files, and the directories that lead to them or to the directory one works in.
Looking up a path walks down from directory to directory, so a path through something that is no
directory is told apart from one that leads nowhere.
-/

namespace Pseudocode

/-- Why a path cannot be opened or read. -/
inductive FileError where
  | missing
  | notDirectory
  | isDirectory
  | nameTooLong
  | invalid
  deriving DecidableEq, Repr

namespace FileError

/-- The wording of a file error. -/
def reason : FileError → Text
  | missing => "no such file or directory"
  | notDirectory => "not a directory"
  | isDirectory => "is a directory"
  | nameTooLong => "file name too long"
  | invalid => "invalid argument"

/-- The line that reports a failure to read a path. A directory can be opened but not read. -/
def message (e : FileError) (path : Text) : Text :=
  match e with
  | isDirectory => "read " ++ path ++ ": " ++ e.reason
  | _ => "open " ++ path ++ ": " ++ e.reason

end FileError

/-- The files by the pieces of their paths from the root, and the directory that other paths start
from. -/
structure Files where
  workingDirectory : List Text := []
  contents : List (List Text × Text) := []
  deriving Repr

namespace Files

/-- Whether pieces from the root name a directory. -/
def isDirectory (fs : Files) (place : List Text) : Bool :=
  place.isPrefixOf fs.workingDirectory ||
    fs.contents.any fun (file, _) => place.isPrefixOf file && place != file

/-- Whether pieces from the root name a file. -/
def isFile (fs : Files) (place : List Text) : Bool := fs.contents.any fun (file, _) => file == place

/-- Walk down from a place. The last piece may be missing when a file is to be made. -/
def walk (fs : Files) (create : Bool) : (place pieces : List Text) → Except FileError (List Text)
  | place, [] => .ok place
  | place, piece :: rest =>
    if !fs.isDirectory place then .error .notDirectory
    else if piece.isEmpty ∨ piece = "." then walk fs create place rest
    else if piece = ".." then walk fs create place.dropLast rest
    else if 255 < piece.bytes.length then .error .nameTooLong
    else
      let next := place ++ [piece]
      if fs.isDirectory next || fs.isFile next || (create && rest.isEmpty) then
        walk fs create next rest
      else .error .missing

/-- The place that a path leads to. -/
def locate (fs : Files) (create : Bool) (path : Text) : Except FileError (List Text) :=
  if path.bytes.contains 0 then .error .invalid
  else if 4096 ≤ path.bytes.length then .error .nameTooLong
  else if path.isEmpty then .error .missing
  else walk fs create (if Path.isAbsolute path then [] else fs.workingDirectory) (Path.pieces path)

/-- Whether there is something at a path. -/
def lookup (fs : Files) (path : Text) : Except FileError Unit := do
  let _ ← fs.locate false path

/-- What the file at a path holds. -/
def read (fs : Files) (path : Text) : Except FileError Text := do
  let place ← fs.locate false path
  match fs.contents.lookup place with
  | some t => .ok t
  | none => .error .isDirectory

/-- The file system after a file is written, if it can be. -/
def write (fs : Files) (path : Text) (content : Text) : Except FileError Files := do
  let place ← fs.locate true path
  if fs.isDirectory place then .error .isDirectory
  else
    let others := fs.contents.filter fun (file, _) => file != place
    .ok { fs with contents := (place, content) :: others }

end Files

end Pseudocode

import Pseudocode.Text.Basic

/-!
# Paths

A path is a text whose pieces between slashes name directories and, last, a file. Cleaning a path
removes what can be removed by looking at the path alone.
-/

namespace Pseudocode

namespace Path

/-- The byte between the pieces of a path. -/
def slash : UInt8 := 47

/-- Whether a path starts at the root. -/
def isAbsolute (path : Text) : Bool := path.bytes.head? == some slash

/-- The pieces of a path. -/
def pieces (path : Text) : List Text := path.split slash

/-- One more piece, on top of those that a clean path has so far. The step to the parent removes a
piece; at the root it does nothing, and at the start of any other path it has to stay. -/
def addPiece (rooted : Bool) (above : List Text) (piece : Text) : List Text :=
  if piece.isEmpty ∨ piece = "." then above
  else if piece = ".." then
    match above with
    | [] => if rooted then [] else [piece]
    | top :: rest => if top = ".." then piece :: above else rest
  else piece :: above

/-- The shortest path that means the same when no directory is a link. -/
def clean (path : Text) : Text :=
  let rooted := isAbsolute path
  let kept := Text.join "/" ((pieces path).foldl (addPiece rooted) []).reverse
  if rooted then "/" ++ kept else if kept.isEmpty then "." else kept

/-- Paths one below another, cleaned. Empty ones in front are left out. -/
def join (paths : List Text) : Text :=
  match paths.dropWhile Text.isEmpty with
  | [] => Text.empty
  | paths => clean (Text.join "/" paths)

end Path

end Pseudocode

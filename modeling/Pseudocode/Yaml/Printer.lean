import Pseudocode.Yaml.Scalar

/-!
# How documents are laid out in YAML

Mappings and sequences are written one entry to a line. What belongs to a key stands two columns to
the right of it, also the dashes of a sequence; behind a dash the item starts on the same line.
-/

namespace Pseudocode.Yaml

/-- End a line, unless the text already does. -/
def endLine (cs : List Char) : List Char :=
  match cs.getLast? with
  | some c => if isBreak c then cs else cs ++ ['\n']
  | none => ['\n']

/-- Texts that each end a line, all but the first behind the indentation. -/
def stacked (indent : Nat) : List (List Char) → List Char
  | [] => []
  | [t] => t
  | t :: rest => t ++ spaces indent ++ stacked indent rest

mutual

/-- A node whose first line starts at column `indent`, ended by the end of a line. -/
def Node.block (indent : Nat) : Node → List Char
  | .scalar s => endLine (s.written indent)
  | .sequence [] => "[]\n".toList
  | .sequence items => stacked indent (itemBlocks indent items)
  | .mapping [] => "\x7b\x7d\n".toList
  | .mapping entries => stacked indent (entryBlocks indent entries)

/-- The items of a sequence, each behind a dash. -/
def itemBlocks (indent : Nat) : List Node → List (List Char)
  | [] => []
  | item :: rest => ('-' :: ' ' :: item.block (indent + 2)) :: itemBlocks indent rest

/-- The entries of a mapping. -/
def entryBlocks (indent : Nat) : List (String × Node) → List (List Char)
  | [] => []
  | (key, node) :: rest =>
    (key.toList ++ ':' :: node.afterKey (indent + 2)) :: entryBlocks indent rest

/-- What stands behind the colon of a key. -/
def Node.afterKey (indent : Nat) : Node → List Char
  | .scalar s => ' ' :: endLine (s.written indent)
  | .sequence [] => " []\n".toList
  | .sequence items => '\n' :: spaces indent ++ stacked indent (itemBlocks indent items)
  | .mapping [] => " \x7b\x7d\n".toList
  | .mapping entries => '\n' :: spaces indent ++ stacked indent (entryBlocks indent entries)

end

/-- A document. -/
def Node.document (n : Node) : Text := Text.ofChars (n.block 0)

end Pseudocode.Yaml

import Pseudocode.Toml.Syntax

/-!
# TOML documents

What a TOML file says as a whole: a table of named nodes, and the keys that were given, in the order
of the file, both those of the headers and those of the values, also inside inline tables.
-/

namespace Pseudocode.Toml

/-- What a name in a table stands for. The last of an array of tables is the one that grows. -/
inductive Node where
  | value (v : Value)
  | table (entries : List (Text × Node))
  | tables (all : List (List (Text × Node)))
  deriving Repr, Inhabited

/-- Whether a name stands for a single table. -/
def Node.isTable : Node → Bool
  | table _ => true
  | value _ | tables _ => false

/-- Named nodes, in the order in which they were made. -/
abbrev Table := List (Text × Node)

/-- The tables of a file, and its keys in order. -/
structure Document where
  root : Table
  keys : List Key
  deriving Repr

end Pseudocode.Toml

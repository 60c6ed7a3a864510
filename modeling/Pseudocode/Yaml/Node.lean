import Pseudocode.Text.Basic

/-!
# YAML node trees

What a document says, without how it is laid out. A scalar is either a string, which is written so
that it reads back as that string, or a bare word such as a number or a truth value, which is
written as it is. The keys of a mapping are kept in order.
-/

namespace Pseudocode.Yaml

/-- A leaf of a document. -/
inductive Scalar where
  | string (t : Text)
  | bare (t : Text)
  deriving DecidableEq, Repr

/-- A node of a document. -/
inductive Node where
  | scalar (s : Scalar)
  | sequence (items : List Node)
  | mapping (entries : List (String × Node))
  deriving Repr

namespace Node

/-- A string leaf. -/
def string (t : Text) : Node := scalar (.string t)

/-- A leaf that is written as it is. -/
def bare (t : Text) : Node := scalar (.bare t)

end Node

end Pseudocode.Yaml

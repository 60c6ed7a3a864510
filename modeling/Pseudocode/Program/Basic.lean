import Pseudocode.Location
import Pseudocode.Number.Binary

/-!
# Programs

A program is a name and a block of statements. Every node carries the place it was read from, or
none when it was built by a host.

A `Segun` keeps each label with its block. A `Si` tells a missing `Sino` from an empty one. The
bounds of a `Para` are numbers, not expressions.
-/

namespace Pseudocode

/-- The operators between two operands. An operator token may also spell something that is no
operator of the language; the run then refuses it. -/
inductive BinaryOp where
  | add | sub | mul | div
  | gt | lt | ge | le | eq | ne
  | and | or
  | other (symbol : Text)
  deriving DecidableEq, Repr

namespace BinaryOp

/-- The operators of the language. -/
def known : List BinaryOp := [add, sub, mul, div, gt, lt, ge, le, eq, ne, and, or]

/-- How an operator is written. -/
def symbol : BinaryOp → Text
  | add => "+"
  | sub => "-"
  | mul => "*"
  | div => "/"
  | gt => ">"
  | lt => "<"
  | ge => ">="
  | le => "<="
  | eq => "="
  | ne => "<>"
  | and => "&"
  | or => "|"
  | other s => s

/-- The operator that a text spells. -/
def ofText (t : Text) : BinaryOp := (known.find? (·.symbol == t)).getD (other t)

end BinaryOp

/-- The operators in front of one operand. Only a host can build one that is not the minus sign. -/
inductive UnaryOp where
  | negate
  | other (symbol : Text)
  deriving DecidableEq, Repr

namespace UnaryOp

/-- How an operator is written. -/
def symbol : UnaryOp → Text
  | negate => "-"
  | other s => s

/-- The operator that a text spells. -/
def ofText (t : Text) : UnaryOp := if t = negate.symbol then negate else other t

end UnaryOp

/-- Expressions. -/
inductive Expr where
  | text (loc : Option Location) (value : Text)
  | number (loc : Option Location) (value : Number)
  | boolean (loc : Option Location) (value : Bool)
  | name (loc : Option Location) (name : Text)
  | unary (loc : Option Location) (op : UnaryOp) (operand : Expr)
  | binary (loc : Option Location) (op : BinaryOp) (lhs rhs : Expr)
  | element (loc : Option Location) (array : Text) (index : Expr)
  | call (loc : Option Location) (function : Text) (args : List Expr)
  deriving Repr, Inhabited

/-- A variable that a `Leer` reads into. -/
structure Target where
  loc : Option Location
  name : Text
  deriving DecidableEq, Repr

/-- Statements. -/
inductive Stmt where
  | assign (loc : Option Location) (name : Text) (value : Expr)
  | dimension (loc : Option Location) (name : Text) (size : Expr)
  | assignElement (loc : Option Location) (array : Text) (index value : Expr)
  | print (loc : Option Location) (exprs : List Expr)
  | read (loc : Option Location) (targets : List Target)
  | branch (loc : Option Location) (cond : Expr) (yes : List Stmt) (no : Option (List Stmt))
  | select (loc : Option Location) (subject : Expr) (cases : List (Expr × List Stmt))
      (otherwise : List Stmt)
  | whileLoop (loc : Option Location) (cond : Expr) (body : List Stmt)
  | repeatLoop (loc : Option Location) (body : List Stmt) (cond : Expr)
  | forLoop (loc : Option Location) (var : Text) (first last step : Number) (body : List Stmt)
  deriving Repr, Inhabited

/-- A named block of statements. -/
structure Program where
  name : Text
  body : List Stmt
  deriving Repr, Inhabited

namespace Expr

/-- The place of an expression. -/
def loc : Expr → Option Location
  | text l _ | number l _ | boolean l _ | name l _ | unary l _ _ | binary l _ _ _ | element l _ _
  | call l _ _ => l

end Expr

namespace Stmt

/-- The place of a statement. -/
def loc : Stmt → Option Location
  | assign l _ _ | dimension l _ _ | assignElement l _ _ _ | print l _ | read l _ | branch l _ _ _
  | select l _ _ _ | whileLoop l _ _ | repeatLoop l _ _ | forLoop l _ _ _ _ _ => l

end Stmt

/-- The value of a name that no program can bind. -/
def constant? (name : Text) : Option Number :=
  if name = "PI" then some Number.pi else if name = "E" then some Number.euler else none

end Pseudocode

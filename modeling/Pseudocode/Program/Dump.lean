import Pseudocode.Number.Shortest
import Pseudocode.Program.Basic
import Pseudocode.Yaml.Node

/-!
# Programs as node trees

Every node of a program becomes a mapping. Its first key is `node`, the kind; then comes `at`, the
place, if there is one; then the parts of the node, always in the same order. A missing `Sino` has
no `else` key, an empty one has an empty sequence. Numbers are bare and lose the sign of zero.
-/

namespace Pseudocode

open Yaml

/-- The mapping of a node: its kind, its place and its parts. -/
def located (kind : String) (loc : Option Location) (parts : List (String × Node)) : Node :=
  .mapping (("node", .string kind) :: (match loc with
    | some l => ("at", .string l.text) :: parts
    | none => parts))

mutual

/-- The node tree of an expression. -/
def Expr.toYaml : Expr → Node
  | .text l t => located "String" l [("value", .string t)]
  | .number l n => located "Number" l [("value", .bare n.text)]
  | .boolean l b => located "Boolean" l [("value", .bare (if b then "true" else "false"))]
  | .name l n => located "Identifier" l [("name", .string n)]
  | .unary l op e => located "Unary" l [("op", .string op.symbol), ("operand", e.toYaml)]
  | .binary l op a b =>
    located "Binary" l [("op", .string op.symbol), ("left", a.toYaml), ("right", b.toYaml)]
  | .element l n i => located "ArrayAccess" l [("name", .string n), ("index", i.toYaml)]
  | .call l n args => located "Call" l [("name", .string n), ("args", .sequence (exprsToYaml args))]

/-- The node trees of expressions. -/
def exprsToYaml : List Expr → List Node
  | [] => []
  | e :: rest => e.toYaml :: exprsToYaml rest

end

/-- The node tree of a variable that is read into. -/
def Target.toYaml (t : Target) : Node := (Expr.name t.loc t.name).toYaml

mutual

/-- The node tree of a statement. -/
def Stmt.toYaml : Stmt → Node
  | .assign l n e => located "Assignment" l [("name", .string n), ("value", e.toYaml)]
  | .dimension l n e => located "ArrayDecl" l [("name", .string n), ("size", e.toYaml)]
  | .assignElement l n i e =>
    located "ArrayAssign" l [("name", .string n), ("index", i.toYaml), ("value", e.toYaml)]
  | .print l es => located "Print" l [("exprs", .sequence (exprsToYaml es))]
  | .read l ts => located "Read" l [("targets", .sequence (ts.map Target.toYaml))]
  | .branch l c yes no =>
    located "If" l
      ([("cond", c.toYaml), ("then", .sequence (blockToYaml yes))] ++ elseToYaml no)
  | .select l s cases other =>
    located "Switch" l
      [("subject", s.toYaml), ("cases", .sequence (casesToYaml cases)),
       ("default", .sequence (blockToYaml other))]
  | .whileLoop l c b => located "While" l [("cond", c.toYaml), ("body", .sequence (blockToYaml b))]
  | .repeatLoop l b c =>
    located "Repeat" l [("body", .sequence (blockToYaml b)), ("until", c.toYaml)]
  | .forLoop l v first last step b =>
    located "For" l
      [("var", .string v), ("from", .bare first.text), ("to", .bare last.text),
       ("step", .bare step.text), ("body", .sequence (blockToYaml b))]

/-- The node trees of statements. -/
def blockToYaml : List Stmt → List Node
  | [] => []
  | s :: rest => s.toYaml :: blockToYaml rest

/-- The entry of a second branch. -/
def elseToYaml : Option (List Stmt) → List (String × Node)
  | none => []
  | some b => [("else", .sequence (blockToYaml b))]

/-- The node trees of the cases of a `Segun`. -/
def casesToYaml : List (Expr × List Stmt) → List Node
  | [] => []
  | (label, body) :: rest =>
    .mapping [("label", label.toYaml), ("body", .sequence (blockToYaml body))] :: casesToYaml rest

end

/-- The node tree of a program. -/
def Program.toYaml (p : Program) : Node :=
  .mapping [("node", .string "Program"), ("name", .string p.name),
    ("body", .sequence (blockToYaml p.body))]

end Pseudocode

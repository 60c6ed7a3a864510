import Pseudocode.Program.Parser
import Pseudocode.Proofs.Text.Ascii

/-!
# The grammar of the language

`Derives` says which tokens spell which phrase, without a parser: there is no state, no token is
looked at ahead, and a repetition may be cut anywhere. Which tokens count as which reserved word is
a parameter. The grammar of the language has `Token.Spells` there; the parser also takes some words
with letters outside ASCII, and what holds of the trees it makes does not depend on this.

All operators have one precedence and associate to the left, so an expression is an optionally
negated operand after an expression and an operator. `PI` and `E` are operands like any literal, and
a name that a statement binds must be neither of them.
-/

namespace Pseudocode

namespace Token

/-- A reserved word, in ASCII letters of any case. -/
def Spells (t : Token) (k : Keyword) : Prop := t.kind = .keyword ∧ t.value.asciiLower = k.text

/-- A name that is not that of a constant. -/
def IsName (t : Token) : Prop := t.kind = .identifier ∧ constant? t.value = none

/-- The minus sign. -/
def IsMinus (t : Token) : Prop := t.kind = .operator ∧ t.value = "-"

/-- The colon, which closes the label of a case. -/
def IsColon (t : Token) : Prop := t.kind = .operator ∧ t.value = ":"

/-- An operator that may stand between two operands. -/
def IsInner (t : Token) : Prop := t.kind = .operator ∧ t.value ≠ ":"

end Token

/-- What a stretch of tokens may be, with the tree that it is read as. -/
inductive Phrase where
  | operand (e : Expr)
  | signed (e : Expr)
  | expr (e : Expr)
  | exprs (es : List Expr)
  | targets (xs : List Target)
  | subject (e : Expr)
  | bound (n : Number)
  | stride (n : Number)
  | otherBranch (no : Option (List Stmt))
  | cases (cs : List (Expr × List Stmt))
  | otherwise (ss : List Stmt)
  | stmt (s : Stmt)
  | block (ss : List Stmt)
  | program (p : Program)

/-- Tokens spell a phrase, where `reads` tells which tokens are which reserved word. -/
inductive Derives (reads : Token → Keyword → Prop) : Phrase → List Token → Prop where
  -- Operands.
  | text {t : Token} (kind : t.kind = .string) : Derives reads (.operand (.text t.loc t.value)) [t]
  | number {t : Token} {n : Number} (kind : t.kind = .number)
      (value : Number.ofText? t.value = some n) : Derives reads (.operand (.number t.loc n)) [t]
  | boolean {t : Token} (kind : t.kind = .boolean) :
      Derives reads (.operand (.boolean t.loc (t.value.sameFold "verdadero"))) [t]
  | constant {t : Token} {n : Number} (kind : t.kind = .identifier)
      (value : constant? t.value = some n) : Derives reads (.operand (.number t.loc n)) [t]
  | name {t : Token} (name : t.IsName) : Derives reads (.operand (.name t.loc t.value)) [t]
  | element {x l r : Token} {e : Expr} {ts : List Token} (name : x.IsName)
      (left : l.kind = .openBracket) (index : Derives reads (.expr e) ts)
      (right : r.kind = .closeBracket) :
      Derives reads (.operand (.element x.loc x.value e)) (x :: l :: ts ++ [r])
  | callNone {x l r : Token} (name : x.IsName) (left : l.kind = .openParen)
      (right : r.kind = .closeParen) : Derives reads (.operand (.call x.loc x.value [])) [x, l, r]
  | call {x l r : Token} {es : List Expr} {ts : List Token} (name : x.IsName)
      (left : l.kind = .openParen) (args : Derives reads (.exprs es) ts)
      (right : r.kind = .closeParen) :
      Derives reads (.operand (.call x.loc x.value es)) (x :: l :: ts ++ [r])
  | group {l r : Token} {e : Expr} {ts : List Token} (left : l.kind = .openParen)
      (inner : Derives reads (.expr e) ts) (right : r.kind = .closeParen) :
      Derives reads (.operand e) (l :: ts ++ [r])
  -- Expressions and lists of them.
  | plain {e : Expr} {ts : List Token} (operand : Derives reads (.operand e) ts) :
      Derives reads (.signed e) ts
  | negated {m : Token} {e : Expr} {ts : List Token} (minus : m.IsMinus)
      (operand : Derives reads (.operand e) ts) :
      Derives reads (.signed (.unary m.loc .negate e)) (m :: ts)
  | single {e : Expr} {ts : List Token} (operand : Derives reads (.signed e) ts) :
      Derives reads (.expr e) ts
  | operation {o : Token} {lhs rhs : Expr} {ts us : List Token}
      (left : Derives reads (.expr lhs) ts) (inner : o.IsInner)
      (right : Derives reads (.signed rhs) us) :
      Derives reads (.expr (.binary o.loc (.ofText o.value) lhs rhs)) (ts ++ o :: us)
  | firstExpr {e : Expr} {ts : List Token} (expr : Derives reads (.expr e) ts) :
      Derives reads (.exprs [e]) ts
  | nextExpr {c : Token} {es : List Expr} {e : Expr} {ts us : List Token}
      (before : Derives reads (.exprs es) ts) (comma : c.kind = .comma)
      (expr : Derives reads (.expr e) us) : Derives reads (.exprs (es ++ [e])) (ts ++ c :: us)
  -- The parts of statements.
  | firstTarget {x : Token} (name : x.IsName) : Derives reads (.targets [⟨x.loc, x.value⟩]) [x]
  | nextTarget {c x : Token} {xs : List Target} {ts : List Token}
      (before : Derives reads (.targets xs) ts) (comma : c.kind = .comma) (name : x.IsName) :
      Derives reads (.targets (xs ++ [⟨x.loc, x.value⟩])) (ts ++ [c, x])
  | subjectName {x : Token} (name : x.IsName) : Derives reads (.subject (.name x.loc x.value)) [x]
  | subjectConstant {x : Token} {n : Number} (kind : x.kind = .identifier)
      (value : constant? x.value = some n) : Derives reads (.subject (.number x.loc n)) [x]
  | boundAbove {t : Token} {n : Number} (kind : t.kind = .number)
      (value : Number.ofText? t.value = some n) : Derives reads (.bound n) [t]
  | boundBelow {m t : Token} {n : Number} (minus : m.IsMinus) (kind : t.kind = .number)
      (value : Number.ofText? t.value = some n) : Derives reads (.bound (-n)) [m, t]
  | strideOne : Derives reads (.stride 1) []
  | strideGiven {c p : Token} {n : Number} {ts : List Token} (con : reads c .con)
      (paso : reads p .paso) (bound : Derives reads (.bound n) ts) :
      Derives reads (.stride n) (c :: p :: ts)
  | noOther : Derives reads (.otherBranch none) []
  | other {s : Token} {ss : List Stmt} {ts : List Token} (sino : reads s .sino)
      (body : Derives reads (.block ss) ts) : Derives reads (.otherBranch (some ss)) (s :: ts)
  | noCases : Derives reads (.cases []) []
  | nextCase {c d : Token} {cs : List (Expr × List Stmt)} {label : Expr} {ss : List Stmt}
      {ts us vs : List Token} (before : Derives reads (.cases cs) ts) (caso : reads c .caso)
      (expr : Derives reads (.expr label) us) (colon : d.IsColon)
      (body : Derives reads (.block ss) vs) :
      Derives reads (.cases (cs ++ [(label, ss)])) (ts ++ (c :: us ++ d :: vs))
  | noOtherwise : Derives reads (.otherwise []) []
  | otherwise {d o m c : Token} {ss : List Stmt} {ts : List Token} (de : reads d .de)
      (otro : reads o .otro) (modo : reads m .modo) (colon : c.IsColon)
      (body : Derives reads (.block ss) ts) :
      Derives reads (.otherwise ss) (d :: o :: m :: c :: ts)
  -- Statements.
  | assign {x a : Token} {e : Expr} {ts : List Token} (name : x.IsName)
      (arrow : a.kind = .assignment) (expr : Derives reads (.expr e) ts) :
      Derives reads (.stmt (.assign x.loc x.value e)) (x :: a :: ts)
  | assignElement {x l r a : Token} {i e : Expr} {ts us : List Token} (name : x.IsName)
      (left : l.kind = .openBracket) (index : Derives reads (.expr i) ts)
      (right : r.kind = .closeBracket) (arrow : a.kind = .assignment)
      (expr : Derives reads (.expr e) us) :
      Derives reads (.stmt (.assignElement x.loc x.value i e)) (x :: l :: ts ++ r :: a :: us)
  | dimension {k x l r : Token} {e : Expr} {ts : List Token} (dimension : reads k .dimension)
      (name : x.IsName) (left : l.kind = .openBracket) (size : Derives reads (.expr e) ts)
      (right : r.kind = .closeBracket) :
      Derives reads (.stmt (.dimension k.loc x.value e)) (k :: x :: l :: ts ++ [r])
  | print {k : Token} {es : List Expr} {ts : List Token} (escribir : reads k .escribir)
      (exprs : Derives reads (.exprs es) ts) : Derives reads (.stmt (.print k.loc es)) (k :: ts)
  | read {k : Token} {xs : List Target} {ts : List Token} (leer : reads k .leer)
      (targets : Derives reads (.targets xs) ts) : Derives reads (.stmt (.read k.loc xs)) (k :: ts)
  | branch {k e f : Token} {cond : Expr} {yes : List Stmt} {no : Option (List Stmt)}
      {ts us vs : List Token} (si : reads k .si) (expr : Derives reads (.expr cond) ts)
      (entonces : reads e .entonces) (body : Derives reads (.block yes) us)
      (other : Derives reads (.otherBranch no) vs) (finSi : reads f .finSi) :
      Derives reads (.stmt (.branch k.loc cond yes no)) (k :: ts ++ e :: us ++ vs ++ [f])
  | select {k h f : Token} {subject : Expr} {cs : List (Expr × List Stmt)} {ss : List Stmt}
      {ts us vs : List Token} (segun : reads k .segun) (value : Derives reads (.subject subject) ts)
      (hacer : reads h .hacer) (cases : Derives reads (.cases cs) us)
      (rest : Derives reads (.otherwise ss) vs) (finSegun : reads f .finSegun) :
      Derives reads (.stmt (.select k.loc subject cs ss)) (k :: ts ++ h :: us ++ vs ++ [f])
  | whileLoop {k h f : Token} {cond : Expr} {ss : List Stmt} {ts us : List Token}
      (mientras : reads k .mientras) (expr : Derives reads (.expr cond) ts)
      (hacer : reads h .hacer) (body : Derives reads (.block ss) us)
      (finMientras : reads f .finMientras) :
      Derives reads (.stmt (.whileLoop k.loc cond ss)) (k :: ts ++ h :: us ++ [f])
  | repeatLoop {k h q : Token} {cond : Expr} {ss : List Stmt} {ts us : List Token}
      (repetir : reads k .repetir) (body : Derives reads (.block ss) ts) (hasta : reads h .hasta)
      (que : reads q .que) (expr : Derives reads (.expr cond) us) :
      Derives reads (.stmt (.repeatLoop k.loc ss cond)) (k :: ts ++ h :: q :: us)
  | forLoop {k x a h g f : Token} {first last step : Number} {ss : List Stmt}
      {ts us vs ws : List Token} (para : reads k .para) (name : x.IsName)
      (arrow : a.kind = .assignment) (lower : Derives reads (.bound first) ts)
      (hasta : reads h .hasta) (upper : Derives reads (.bound last) us)
      (stride : Derives reads (.stride step) vs) (hacer : reads g .hacer)
      (body : Derives reads (.block ss) ws) (finPara : reads f .finPara) :
      Derives reads (.stmt (.forLoop k.loc x.value first last step ss))
        (k :: x :: a :: ts ++ h :: us ++ vs ++ g :: ws ++ [f])
  -- Blocks and programs.
  | noStmts : Derives reads (.block []) []
  | nextStmt {ss : List Stmt} {s : Stmt} {ts us : List Token}
      (before : Derives reads (.block ss) ts)
      (stmt : Derives reads (.stmt s) us) : Derives reads (.block (ss ++ [s])) (ts ++ us)
  | program {k n f : Token} {ss : List Stmt} {ts : List Token} (algoritmo : reads k .algoritmo)
      (title : n.kind = .identifier) (body : Derives reads (.block ss) ts)
      (finAlgoritmo : reads f .finAlgoritmo) :
      Derives reads (.program ⟨n.value, ss⟩) (k :: n :: ts ++ [f])

end Pseudocode

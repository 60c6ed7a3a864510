import Pseudocode.Number.Numeral
import Pseudocode.Program.Basic
import Pseudocode.Token.Basic

/-!
# From tokens to programs

The parser takes one token at a time. Its state is the part of the program that is already read, as
a nest of pieces with a gap where the next token goes: the open blocks, in the innermost of them the
statement under way, and in that the expression under way. `step` fills the gap with one token or
refuses the token; the end of the tokens is one more token.

Since the state after some tokens does not depend on those that follow, a refused token is refused
whatever comes after it, and a source that merely ends too early is one that the last step refuses.

All operators bind alike and to the left, so of an expression only the left operand and the operator
in front of the gap have to be remembered. A colon is an operator token that no expression contains,
because it closes the label of a case.
-/

namespace Pseudocode

/-- What the grammar asks for at some point. -/
inductive Expectation where
  | keyword (k : Keyword)
  | colon
  | token (kind : Token.Kind)
  | programName
  | programEnd
  | identifier
  | expression
  deriving DecidableEq, Repr

namespace Expectation

/-- The wording of an expectation. -/
def text : Expectation → Text
  | keyword k => "'" ++ k.text ++ "'"
  | colon => "':'"
  | token kind => kind.name
  | programName => "program name after 'algoritmo'"
  | programEnd => "end of input after 'finalgoritmo'"
  | identifier => "identifier"
  | expression => "expression"

end Expectation

/-- Why the grammar refuses a token. -/
inductive ParseCause where
  | expected (what : Expectation)
  | invalidStatement
  | invalidAfterName (name : Text)
  | constantName (name : Text)
  | invalidNumber
  deriving DecidableEq, Repr

/-- A cause and the token that is to blame. -/
structure ParseError where
  token : Token
  cause : ParseCause
  deriving DecidableEq, Repr

namespace ParseError

/-- The wording of a parse error. -/
def message (e : ParseError) : Text :=
  match e.cause with
  | .expected what => "expected " ++ what.text ++ ", found " ++ e.token.describe
  | .invalidStatement => "invalid statement: " ++ e.token.describe
  | .invalidAfterName name => "invalid statement after '" ++ name ++ "': found " ++ e.token.describe
  | .constantName name => "invalid variable name '" ++ name ++ "': predefined constant"
  | .invalidNumber => "invalid number " ++ e.token.describe

/-- Whether the source ended where more was needed. -/
def isIncomplete (e : ParseError) : Bool := e.token.kind == .endOfInput

end ParseError

namespace Parser

/-- A left operand and the operator after it. -/
structure Pending where
  loc : Option Location
  op : BinaryOp
  lhs : Expr
  deriving Repr

/-- What stands in front of the operand that must come next, inside one pair of brackets. -/
structure Gap where
  pending : Option Pending
  minus : Option (Option Location)
  deriving Repr

namespace Gap

/-- The gap at the start of an expression. -/
def start : Gap := ⟨none, none⟩

/-- The expression that an operand completes. -/
def fill (g : Gap) (operand : Expr) : Expr :=
  let signed := match g.minus with
    | some loc => .unary loc .negate operand
    | none => operand
  match g.pending with
  | some p => .binary p.loc p.op p.lhs signed
  | none => signed

end Gap

/-- An opened bracket and what stands in front of the expression in it. -/
inductive Bracket where
  | group
  | index (loc : Option Location) (array : Text)
  | argument (loc : Option Location) (function : Text) (done : List Expr)
  deriving Repr

/-- The brackets that are open, innermost first, each with the gap that it will fill. -/
abbrev Brackets := List (Gap × Bracket)

/-- The cases of a `Segun` read so far. A label is kept aside until its block is complete, and then
both are added as one case, so there are as many blocks as labels by the type of the cases. -/
structure Selection where
  loc : Option Location
  subject : Expr
  cases : List (Expr × List Stmt)
  deriving Repr

/-- A statement that goes on with an expression. -/
inductive Opening where
  | print (loc : Option Location) (done : List Expr)
  | branch (loc : Option Location)
  | caseLabel (selection : Selection)
  | whileLoop (loc : Option Location)
  | repeatLoop (loc : Option Location) (body : List Stmt)
  | dimension (loc : Option Location) (name : Text)
  | elementIndex (loc : Option Location) (array : Text)
  | assign (loc : Option Location) (name : Text)
  | assignElement (loc : Option Location) (array : Text) (index : Expr)
  deriving Repr

/-- A statement that goes on with a block. -/
inductive Enclosing where
  | yes (loc : Option Location) (cond : Expr)
  | no (loc : Option Location) (cond : Expr) (yes : List Stmt)
  | caseBody (selection : Selection) (label : Expr)
  | otherwise (selection : Selection)
  | whileBody (loc : Option Location) (cond : Expr)
  | repeatBody (loc : Option Location)
  | forBody (loc : Option Location) (var : Text) (first last step : Number)
  deriving Repr

/-- The open blocks: the statements of the innermost one, and for each block around it the
statements before the one that encloses. -/
structure Blocks where
  program : Text
  done : List Stmt
  outer : List (List Stmt × Enclosing)
  deriving Repr

namespace Blocks

/-- Append a statement to the innermost block. -/
def add (b : Blocks) (s : Stmt) : Blocks := { b with done := b.done ++ [s] }

/-- Open a block. -/
def enter (b : Blocks) (e : Enclosing) : Blocks := ⟨b.program, [], (b.done, e) :: b.outer⟩

end Blocks

/-- A place in a statement where one of a few fixed tokens or a name must come. -/
inductive Header where
  | readTarget (loc : Option Location) (done : List Target)
  | readNext (loc : Option Location) (done : List Target)
  | selectSubject (loc : Option Location)
  | selectHacer (loc : Option Location) (subject : Expr)
  | selectCase (selection : Selection)
  | selectOtro (selection : Selection)
  | selectModo (selection : Selection)
  | selectColon (selection : Selection)
  | repeatQue (loc : Option Location) (body : List Stmt)
  | forVar (loc : Option Location)
  | forArrow (loc : Option Location) (var : Text)
  | forFirst (loc : Option Location) (var : Text) (minus : Bool)
  | forHasta (loc : Option Location) (var : Text) (first : Number)
  | forLast (loc : Option Location) (var : Text) (first : Number) (minus : Bool)
  | forCon (loc : Option Location) (var : Text) (first last : Number)
  | forPaso (loc : Option Location) (var : Text) (first last : Number)
  | forStep (loc : Option Location) (var : Text) (first last : Number) (minus : Bool)
  | forHacer (loc : Option Location) (var : Text) (first last step : Number)
  | dimensionName (loc : Option Location)
  | dimensionBracket (loc : Option Location) (name : Text)
  | assignTarget (loc : Option Location) (name : Text)
  | assignArrow (loc : Option Location) (array : Text) (index : Expr)
  deriving Repr

/-- What has been read and where the next token goes. -/
inductive State where
  | start
  | title
  | block (b : Blocks)
  | header (b : Blocks) (h : Header)
  | operand (b : Blocks) (o : Opening) (brackets : Brackets) (gap : Gap)
  | named (b : Blocks) (o : Opening) (brackets : Brackets) (gap : Gap) (loc : Option Location)
      (name : Text)
  | arguments (b : Blocks) (o : Opening) (brackets : Brackets) (gap : Gap) (loc : Option Location)
      (function : Text)
  | value (b : Blocks) (o : Opening) (brackets : Brackets) (e : Expr)
  | ended (p : Program)
  | closed (p : Program)
  deriving Repr

/-- Refuse a token because something else must stand there. -/
def expected {α : Type} (t : Token) (what : Expectation) : Except ParseError α :=
  .error ⟨t, .expected what⟩

/-- Continue if a condition on the token holds. -/
def require (t : Token) (what : Expectation) (ok : Bool) (next : State) : Except ParseError State :=
  if ok then .ok next else expected t what

/-- Continue if the token is a reserved word. -/
def requireKeyword (t : Token) (k : Keyword) (next : State) : Except ParseError State :=
  require t (.keyword k) (t.isKeyword k) next

/-- Continue if the token is of a kind. -/
def requireKind (t : Token) (kind : Token.Kind) (next : State) : Except ParseError State :=
  require t (.token kind) (t.kind == kind) next

/-- Continue with the name if the token is one that a program may bind. -/
def requireName (t : Token) (next : Text → State) : Except ParseError State :=
  if t.kind ≠ .identifier then expected t .identifier
  else if (constant? t.value).isSome then .error ⟨t, .constantName t.value⟩
  else .ok (next t.value)

/-- Continue with the number, after a minus sign that comes first. -/
def requireNumber (t : Token) (minus : Bool) (signed : State) (next : Number → State) :
    Except ParseError State :=
  if !minus && t.isOperator "-" then .ok signed
  else if t.kind ≠ .number then expected t (.token .number)
  else match Number.ofText? t.value with
    | some n => .ok (next (if minus then -n else n))
    | none => .error ⟨t, .invalidNumber⟩

/-- The start of an expression. -/
def expression (b : Blocks) (o : Opening) : State := .operand b o [] .start

/-- The first token of a statement. -/
def statementStep (b : Blocks) (t : Token) : Except ParseError State :=
  match t.kind with
  | .identifier => .ok (.header b (.assignTarget t.loc t.value))
  | .keyword =>
    match Keyword.ofText? t.value with
    | some .escribir => .ok (expression b (.print t.loc []))
    | some .leer => .ok (.header b (.readTarget t.loc []))
    | some .si => .ok (expression b (.branch t.loc))
    | some .segun => .ok (.header b (.selectSubject t.loc))
    | some .mientras => .ok (expression b (.whileLoop t.loc))
    | some .repetir => .ok (.block (b.enter (.repeatBody t.loc)))
    | some .para => .ok (.header b (.forVar t.loc))
    | some .dimension => .ok (.header b (.dimensionName t.loc))
    | _ => .error ⟨t, .invalidStatement⟩
  | _ => .error ⟨t, .invalidStatement⟩

/-- A statement, unless the tokens end although a reserved word is still to come. -/
def statementOr (b : Blocks) (closing : Keyword) (t : Token) : Except ParseError State :=
  if t.kind = .endOfInput then expected t (.keyword closing) else statementStep b t

/-- The token after a label and its block: another case, the last part, or the end. -/
def selectionStep (b : Blocks) (s : Selection) (t : Token) (other : Except ParseError State) :
    Except ParseError State :=
  if t.isKeyword .caso then .ok (expression b (.caseLabel s))
  else if t.isKeyword .de then .ok (.header b (.selectOtro s))
  else if t.isKeyword .finSegun then .ok (.block (b.add (.select s.loc s.subject s.cases [])))
  else other

/-- A token where a statement or the end of the innermost block may stand. -/
def blockStep (b : Blocks) (t : Token) : Except ParseError State :=
  match b.outer with
  | [] =>
    if t.isKeyword .finAlgoritmo then .ok (.ended ⟨b.program, b.done⟩)
    else statementOr b .finAlgoritmo t
  | (before, enclosing) :: outer =>
    let around : Blocks := ⟨b.program, before, outer⟩
    match enclosing with
    | .yes loc cond =>
      if t.isKeyword .sino then .ok (.block (around.enter (.no loc cond b.done)))
      else if t.isKeyword .finSi then .ok (.block (around.add (.branch loc cond b.done none)))
      else statementOr b .finSi t
    | .no loc cond yes =>
      if t.isKeyword .finSi then .ok (.block (around.add (.branch loc cond yes (some b.done))))
      else statementOr b .finSi t
    | .caseBody s label =>
      selectionStep around { s with cases := s.cases ++ [(label, b.done)] } t
        (statementOr b .finSegun t)
    | .otherwise s =>
      if t.isKeyword .finSegun then
        .ok (.block (around.add (.select s.loc s.subject s.cases b.done)))
      else statementOr b .finSegun t
    | .whileBody loc cond =>
      if t.isKeyword .finMientras then .ok (.block (around.add (.whileLoop loc cond b.done)))
      else statementOr b .finMientras t
    | .repeatBody loc =>
      if t.isKeyword .hasta then .ok (.header around (.repeatQue loc b.done))
      else statementOr b .hasta t
    | .forBody loc var first last step =>
      if t.isKeyword .finPara then
        .ok (.block (around.add (.forLoop loc var first last step b.done)))
      else statementOr b .finPara t

/-- A token inside the fixed part of a statement. -/
def headerStep (b : Blocks) (h : Header) (t : Token) : Except ParseError State :=
  match h with
  | .readTarget loc done =>
    requireName t fun name => .header b (.readNext loc (done ++ [⟨t.loc, name⟩]))
  | .readNext loc done =>
    if t.kind = .comma then .ok (.header b (.readTarget loc done))
    else blockStep (b.add (.read loc done)) t
  | .selectSubject loc =>
    let subject := match constant? t.value with
      | some v => Expr.number t.loc v
      | none => Expr.name t.loc t.value
    requireKind t .identifier (.header b (.selectHacer loc subject))
  | .selectHacer loc subject => requireKeyword t .hacer (.header b (.selectCase ⟨loc, subject, []⟩))
  | .selectCase s => selectionStep b s t (expected t (.keyword .caso))
  | .selectOtro s => requireKeyword t .otro (.header b (.selectModo s))
  | .selectModo s => requireKeyword t .modo (.header b (.selectColon s))
  | .selectColon s => require t .colon (t.isOperator ":") (.block (b.enter (.otherwise s)))
  | .repeatQue loc body => requireKeyword t .que (expression b (.repeatLoop loc body))
  | .forVar loc => requireName t fun var => .header b (.forArrow loc var)
  | .forArrow loc var => requireKind t .assignment (.header b (.forFirst loc var false))
  | .forFirst loc var minus =>
    requireNumber t minus (.header b (.forFirst loc var true)) fun n =>
      .header b (.forHasta loc var n)
  | .forHasta loc var first => requireKeyword t .hasta (.header b (.forLast loc var first false))
  | .forLast loc var first minus =>
    requireNumber t minus (.header b (.forLast loc var first true)) fun n =>
      .header b (.forCon loc var first n)
  | .forCon loc var first last =>
    if t.isKeyword .con then .ok (.header b (.forPaso loc var first last))
    else requireKeyword t .hacer (.block (b.enter (.forBody loc var first last 1)))
  | .forPaso loc var first last =>
    requireKeyword t .paso (.header b (.forStep loc var first last false))
  | .forStep loc var first last minus =>
    requireNumber t minus (.header b (.forStep loc var first last true)) fun n =>
      .header b (.forHacer loc var first last n)
  | .forHacer loc var first last step =>
    requireKeyword t .hacer (.block (b.enter (.forBody loc var first last step)))
  | .dimensionName loc => requireName t fun name => .header b (.dimensionBracket loc name)
  | .dimensionBracket loc name => requireKind t .openBracket (expression b (.dimension loc name))
  | .assignTarget loc name =>
    if t.kind = .openBracket then .ok (expression b (.elementIndex loc name))
    else if t.kind ≠ .assignment then .error ⟨t, .invalidAfterName name⟩
    else if (constant? name).isSome then
      .error ⟨⟨.identifier, name, loc⟩, .constantName name⟩
    else .ok (expression b (.assign loc name))
  | .assignArrow loc array index =>
    if t.kind ≠ .assignment then .error ⟨t, .invalidAfterName array⟩
    else if (constant? array).isSome then
      .error ⟨⟨.identifier, array, loc⟩, .constantName array⟩
    else .ok (expression b (.assignElement loc array index))

/-- A token where an operand must stand. -/
def operandStep (b : Blocks) (o : Opening) (brackets : Brackets) (gap : Gap) (t : Token) :
    Except ParseError State :=
  let filled (e : Expr) : Except ParseError State := .ok (.value b o brackets (gap.fill e))
  if gap.minus.isNone && t.isOperator "-" then
    .ok (.operand b o brackets { gap with minus := some t.loc })
  else match t.kind with
    | .openParen => .ok (.operand b o ((gap, .group) :: brackets) .start)
    | .identifier =>
      match constant? t.value with
      | some v => filled (.number t.loc v)
      | none => .ok (.named b o brackets gap t.loc t.value)
    | .string => filled (.text t.loc t.value)
    | .number =>
      match Number.ofText? t.value with
      | some n => filled (.number t.loc n)
      | none => .error ⟨t, .invalidNumber⟩
    | .boolean => filled (.boolean t.loc (t.value.sameFold "verdadero"))
    | _ => expected t .expression

/-- A token after a complete expression that no bracket encloses. -/
def openingStep (b : Blocks) (o : Opening) (e : Expr) (t : Token) : Except ParseError State :=
  match o with
  | .print loc done =>
    if t.kind = .comma then .ok (expression b (.print loc (done ++ [e])))
    else blockStep (b.add (.print loc (done ++ [e]))) t
  | .branch loc => requireKeyword t .entonces (.block (b.enter (.yes loc e)))
  | .caseLabel s => require t .colon (t.isOperator ":") (.block (b.enter (.caseBody s e)))
  | .whileLoop loc => requireKeyword t .hacer (.block (b.enter (.whileBody loc e)))
  | .repeatLoop loc body => blockStep (b.add (.repeatLoop loc body e)) t
  | .dimension loc name => requireKind t .closeBracket (.block (b.add (.dimension loc name e)))
  | .elementIndex loc array => requireKind t .closeBracket (.header b (.assignArrow loc array e))
  | .assign loc name => blockStep (b.add (.assign loc name e)) t
  | .assignElement loc array index => blockStep (b.add (.assignElement loc array index e)) t

/-- A token after a complete operand. -/
def valueStep (b : Blocks) (o : Opening) (brackets : Brackets) (e : Expr) (t : Token) :
    Except ParseError State :=
  if t.kind = .operator ∧ t.value ≠ ":" then
    .ok (.operand b o brackets ⟨some ⟨t.loc, .ofText t.value, e⟩, none⟩)
  else match brackets with
    | [] => openingStep b o e t
    | (gap, .group) :: outer => requireKind t .closeParen (.value b o outer (gap.fill e))
    | (gap, .index loc array) :: outer =>
      requireKind t .closeBracket (.value b o outer (gap.fill (.element loc array e)))
    | (gap, .argument loc function done) :: outer =>
      if t.kind = .comma then
        .ok (.operand b o ((gap, .argument loc function (done ++ [e])) :: outer) .start)
      else
        requireKind t .closeParen (.value b o outer (gap.fill (.call loc function (done ++ [e]))))

/-- Take one token. -/
def step (s : State) (t : Token) : Except ParseError State :=
  match s with
  | .start => requireKeyword t .algoritmo .title
  | .title => require t .programName (t.kind == .identifier) (.block ⟨t.value, [], []⟩)
  | .block b => blockStep b t
  | .header b h => headerStep b h t
  | .operand b o brackets gap => operandStep b o brackets gap t
  | .named b o brackets gap loc name =>
    if t.kind = .openParen then .ok (.arguments b o brackets gap loc name)
    else if t.kind = .openBracket then
      .ok (.operand b o ((gap, .index loc name) :: brackets) .start)
    else valueStep b o brackets (gap.fill (.name loc name)) t
  | .arguments b o brackets gap loc function =>
    if t.kind = .closeParen then .ok (.value b o brackets (gap.fill (.call loc function [])))
    else operandStep b o ((gap, .argument loc function []) :: brackets) .start t
  | .value b o brackets e => valueStep b o brackets e t
  | .ended p => require t .programEnd (t.kind == .endOfInput) (.closed p)
  | .closed p => .ok (.closed p)

/-- The program, when `t` stands for the end of the tokens. -/
def finish (s : State) (t : Token) : Except ParseError Program := do
  match ← step s t with
  | .closed p => .ok p
  | _ => expected t .programEnd

end Parser

/-- The program that tokens spell. -/
def Program.ofTokens (ts : List Token) : Except ParseError Program := do
  Parser.finish (← ts.foldlM Parser.step .start) (Token.ending ts)

end Pseudocode

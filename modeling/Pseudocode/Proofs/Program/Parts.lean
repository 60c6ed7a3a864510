import Pseudocode.Program.Compile
import Pseudocode.Proofs.Program.Soundness
import Pseudocode.Proofs.Token.Lines

/-!
# The parts of a program

All statements and all expressions of a program, at any depth. What the grammar says of a node is
true of all of them: where a source was compiled, no name that an expression reads is that of a
constant, and every sign is a minus.
-/

namespace Pseudocode

mutual

/-- An expression and all expressions in it. -/
def Expr.parts (e : Expr) : List Expr :=
  e :: match e with
    | .text _ _ | .number _ _ | .boolean _ _ | .name _ _ => []
    | .unary _ _ a => a.parts
    | .binary _ _ a b => a.parts ++ b.parts
    | .element _ _ index => index.parts
    | .call _ _ args => partsOfAll args

/-- All expressions in expressions. -/
def partsOfAll : List Expr → List Expr
  | [] => []
  | e :: rest => e.parts ++ partsOfAll rest

end

mutual

/-- A statement and all statements in it. -/
def Stmt.parts (s : Stmt) : List Stmt :=
  s :: match s with
    | .branch _ _ yes no => partsOfBlock yes ++ partsOfElse no
    | .select _ _ cases otherwise => partsOfCases cases ++ partsOfBlock otherwise
    | .whileLoop _ _ body | .repeatLoop _ body _ | .forLoop _ _ _ _ _ body => partsOfBlock body
    | .assign _ _ _ | .dimension _ _ _ | .assignElement _ _ _ _ | .print _ _ | .read _ _ => []

/-- All statements in a block. -/
def partsOfBlock : List Stmt → List Stmt
  | [] => []
  | s :: rest => s.parts ++ partsOfBlock rest

/-- All statements in the second branch. -/
def partsOfElse : Option (List Stmt) → List Stmt
  | none => []
  | some body => partsOfBlock body

/-- All statements in the blocks of cases. -/
def partsOfCases : List (Expr × List Stmt) → List Stmt
  | [] => []
  | (_, body) :: rest => partsOfBlock body ++ partsOfCases rest

end

theorem partsOfAll_eq (es : List Expr) : partsOfAll es = es.flatMap Expr.parts := by
  induction es with
  | nil => rfl
  | cons e rest ih => rw [partsOfAll, ih, List.flatMap_cons]

theorem partsOfBlock_eq (ss : List Stmt) : partsOfBlock ss = ss.flatMap Stmt.parts := by
  induction ss with
  | nil => rfl
  | cons s rest ih => rw [partsOfBlock, ih, List.flatMap_cons]

theorem partsOfCases_eq (cs : List (Expr × List Stmt)) :
    partsOfCases cs = cs.flatMap fun c => partsOfBlock c.2 := by
  induction cs with
  | nil => rfl
  | cons c rest ih => rw [partsOfCases, ih, List.flatMap_cons]

namespace Stmt

/-- The expressions that a statement has itself, not in a statement inside it. -/
def operands : Stmt → List Expr
  | assign _ _ e | dimension _ _ e | branch _ e _ _ | whileLoop _ e _ | repeatLoop _ _ e => [e]
  | assignElement _ _ index e => [index, e]
  | print _ exprs => exprs
  | select _ subject cases _ => subject :: cases.map (·.1)
  | read _ _ | forLoop _ _ _ _ _ _ => []

/-- All expressions that a statement has itself. -/
def expressions (s : Stmt) : List Expr := partsOfAll s.operands

theorem mem_expressions {s : Stmt} {e a : Expr} (operand : e ∈ s.operands) (part : a ∈ e.parts) :
    a ∈ s.expressions := by
  rw [expressions, partsOfAll_eq]
  exact List.mem_flatMap.2 ⟨e, operand, part⟩

end Stmt

namespace Program

/-- All statements of a program. -/
def statements (p : Program) : List Stmt := partsOfBlock p.body

/-- All expressions of a program. -/
def expressions (p : Program) : List Expr := p.statements.flatMap Stmt.expressions

end Program

/-- What the grammar makes of a name or a sign: a name is not that of a constant, a sign is a
minus. -/
def Expr.IsGrammatical : Expr → Prop
  | .name _ x | .element _ x _ | .call _ x _ => constant? x = none
  | .unary _ op _ => op = .negate
  | .text _ _ | .number _ _ | .boolean _ _ | .binary _ _ _ _ => True

/-- All expressions of a phrase. -/
def Phrase.expressions : Phrase → List Expr
  | operand e | signed e | expr e | subject e => e.parts
  | exprs es => partsOfAll es
  | targets _ | bound _ | stride _ => []
  | otherBranch no => (partsOfElse no).flatMap Stmt.expressions
  | cases cs => partsOfAll (cs.map (·.1)) ++ (partsOfCases cs).flatMap Stmt.expressions
  | otherwise ss | block ss => (partsOfBlock ss).flatMap Stmt.expressions
  | stmt s => s.parts.flatMap Stmt.expressions
  | program p => p.expressions

section Forall

variable {P : Expr → Prop}

theorem forall_partsOfAll_cons {e : Expr} {rest : List Expr} (first : ∀ a ∈ e.parts, P a)
    (others : ∀ a ∈ partsOfAll rest, P a) : ∀ a ∈ partsOfAll (e :: rest), P a := by
  rw [partsOfAll]
  exact List.forall_mem_append.2 ⟨first, others⟩

theorem forall_partsOfAll_single {e : Expr} (h : ∀ a ∈ e.parts, P a) :
    ∀ a ∈ partsOfAll [e], P a :=
  forall_partsOfAll_cons h nofun

theorem forall_expressions_append {ss ts : List Stmt}
    (first : ∀ a ∈ ss.flatMap Stmt.expressions, P a)
    (rest : ∀ a ∈ ts.flatMap Stmt.expressions, P a) :
    ∀ a ∈ (ss ++ ts).flatMap Stmt.expressions, P a := by
  rw [List.flatMap_append]
  exact List.forall_mem_append.2 ⟨first, rest⟩

/-- What holds of a statement's own expressions and of those further in holds of all of them. -/
theorem forall_expressions_cons {s : Stmt} {inner : List Stmt}
    (own : ∀ a ∈ partsOfAll s.operands, P a) (further : ∀ a ∈ inner.flatMap Stmt.expressions, P a) :
    ∀ a ∈ (s :: inner).flatMap Stmt.expressions, P a := by
  rw [List.flatMap_cons]
  exact List.forall_mem_append.2 ⟨own, further⟩

end Forall

/-- What a token stands for as an operand that is a number: a numeral or a constant. -/
def Token.IsValue (t : Token) (n : Number) : Prop :=
  (t.kind = .number ∧ Number.ofText? t.value = some n) ∨ constant? t.value = some n

/-- The nodes that the grammar makes have a property: names that are not constants, minus signs, and
numbers and operators that tokens of a stretch spell. -/
structure Yields (P : Expr → Prop) (ts : List Token) : Prop where
  text (loc : Option Location) (value : Text) : P (.text loc value)
  number (loc : Option Location) {t : Token} {n : Number} : t ∈ ts → t.IsValue n → P (.number loc n)
  boolean (loc : Option Location) (value : Bool) : P (.boolean loc value)
  name (loc : Option Location) {x : Text} : constant? x = none → P (.name loc x)
  element (loc : Option Location) {x : Text} (e : Expr) : constant? x = none → P (.element loc x e)
  call (loc : Option Location) {x : Text} (es : List Expr) : constant? x = none → P (.call loc x es)
  negated (loc : Option Location) (e : Expr) : P (.unary loc .negate e)
  operation {o : Token} (lhs rhs : Expr) :
    o ∈ ts → o.IsInner → P (.binary o.loc (.ofText o.value) lhs rhs)

theorem Yields.part {P : Expr → Prop} {ts us : List Token} (h : Yields P ts)
    (among : ∀ t ∈ us, t ∈ ts) : Yields P us :=
  { h with
    number := fun loc _ _ mem => h.number loc (among _ mem)
    operation := fun lhs rhs mem => h.operation lhs rhs (among _ mem) }

/-- What the grammar makes of the tokens of a phrase is made of all expressions of the phrase. -/
theorem Derives.forall_expressions {reads : Token → Keyword → Prop} {P : Expr → Prop} {ph : Phrase}
    {ts : List Token} (h : Derives reads ph ts) (nodes : Yields P ts) :
    ∀ e ∈ ph.expressions, P e := by
  induction h with
  | text =>
    simpa [Phrase.expressions, Expr.parts] using nodes.text _ _
  | number kind value =>
    simpa [Phrase.expressions, Expr.parts] using nodes.number _ (by simp) (.inl ⟨kind, value⟩)
  | constant _ value | subjectConstant _ value =>
    simpa [Phrase.expressions, Expr.parts] using nodes.number _ (by simp) (.inr value)
  | boolean => simpa [Phrase.expressions, Expr.parts] using nodes.boolean _ _
  | name name | subjectName name =>
    simpa [Phrase.expressions, Expr.parts] using nodes.name _ name.2
  | element name _ _ _ index =>
    simpa [Phrase.expressions, Expr.parts, nodes.element _ _ name.2] using
      index (nodes.part (by simp +contextual))
  | callNone name =>
    simpa [Phrase.expressions, Expr.parts, partsOfAll] using nodes.call _ _ name.2
  | call name _ _ _ args =>
    simpa [Phrase.expressions, Expr.parts, nodes.call _ _ name.2] using
      args (nodes.part (by simp +contextual))
  | group _ _ _ ih => exact ih (nodes.part (by simp +contextual))
  | plain _ ih | single _ ih => exact ih nodes
  | negated _ _ operand =>
    simpa [Phrase.expressions, Expr.parts, nodes.negated] using
      operand (nodes.part (by simp +contextual))
  | operation _ inner _ left right =>
    simp only [Phrase.expressions, Expr.parts, List.forall_mem_cons, List.forall_mem_append]
    exact ⟨nodes.operation _ _ (by simp) inner, left (nodes.part (by simp +contextual)),
      right (nodes.part (by simp +contextual))⟩
  | firstExpr _ ih => simpa [Phrase.expressions, partsOfAll] using ih nodes
  | nextExpr _ _ _ before expr =>
    simp only [Phrase.expressions, partsOfAll_eq, List.flatMap_append, List.flatMap_singleton,
      List.forall_mem_append] at before ⊢
    exact ⟨before (nodes.part (by simp +contextual)), expr (nodes.part (by simp +contextual))⟩
  | firstTarget | nextTarget | boundAbove | boundBelow | strideOne | strideGiven | noOther | noCases
  | noOtherwise | noStmts =>
    simp [Phrase.expressions, partsOfElse, partsOfCases, partsOfBlock, partsOfAll]
  | other _ _ ih | otherwise _ _ _ _ _ ih => exact ih (nodes.part (by simp +contextual))
  | nextCase _ _ _ _ _ before expr body =>
    simp only [Phrase.expressions, partsOfAll_eq, partsOfCases_eq, List.map_append, List.map_cons,
      List.map_nil, List.flatMap_append, List.flatMap_singleton, List.forall_mem_append] at before ⊢
    obtain ⟨labels, blocks⟩ := before (nodes.part (by simp +contextual))
    have expr := expr (nodes.part (by simp +contextual))
    have body := body (nodes.part (by simp +contextual))
    exact ⟨⟨labels, expr⟩, blocks, body⟩
  | nextStmt _ _ before stmt =>
    simp only [Phrase.expressions, partsOfBlock_eq, List.flatMap_append, List.flatMap_singleton,
      List.forall_mem_append] at before ⊢
    exact ⟨before (nodes.part (by simp +contextual)), stmt (nodes.part (by simp +contextual))⟩
  | assign _ _ _ expr | dimension _ _ _ _ _ expr =>
    have expr := expr (nodes.part (by simp +contextual))
    exact forall_expressions_cons (forall_partsOfAll_single expr) nofun
  | assignElement _ _ _ _ _ _ index expr =>
    have index := index (nodes.part (by simp +contextual))
    have expr := expr (nodes.part (by simp +contextual))
    exact forall_expressions_cons
      (forall_partsOfAll_cons index (forall_partsOfAll_single expr)) nofun
  | print _ _ exprs =>
    exact forall_expressions_cons (exprs (nodes.part (by simp +contextual))) nofun
  | read => exact forall_expressions_cons nofun nofun
  | branch _ _ _ _ _ _ cond body other =>
    have cond := cond (nodes.part (by simp +contextual))
    exact forall_expressions_cons (forall_partsOfAll_single cond)
      (forall_expressions_append (body (nodes.part (by simp +contextual)))
        (other (nodes.part (by simp +contextual))))
  | select _ _ _ _ _ _ value cases rest =>
    obtain ⟨labels, blocks⟩ := List.forall_mem_append.1 (cases (nodes.part (by simp +contextual)))
    exact forall_expressions_cons
      (forall_partsOfAll_cons (value (nodes.part (by simp +contextual))) labels)
      (forall_expressions_append blocks (rest (nodes.part (by simp +contextual))))
  | whileLoop _ _ _ _ _ cond body =>
    have cond := cond (nodes.part (by simp +contextual))
    exact forall_expressions_cons (forall_partsOfAll_single cond)
      (body (nodes.part (by simp +contextual)))
  | repeatLoop _ _ _ _ _ body cond =>
    have cond := cond (nodes.part (by simp +contextual))
    exact forall_expressions_cons (forall_partsOfAll_single cond)
      (body (nodes.part (by simp +contextual)))
  | forLoop _ _ _ _ _ _ _ _ _ _ _ _ _ body =>
    exact forall_expressions_cons nofun (body (nodes.part (by simp +contextual)))
  | program _ _ _ _ body => exact body (nodes.part (by simp +contextual))

theorem yields_isGrammatical (ts : List Token) : Yields Expr.IsGrammatical ts where
  text _ _ := trivial
  number _ _ _ _ _ := trivial
  boolean _ _ := trivial
  name _ _ := id
  element _ _ _ := id
  call _ _ _ := id
  negated _ _ := rfl
  operation _ _ _ _ := trivial

theorem Program.exists_tokens_of_ofSource {src : Text} {p : Program} (h : ofSource src = .ok p) :
    ∃ ts, scan src = .ok ts ∧ ofTokens ts = .ok p := by
  cases hscan : scan src with
  | error e =>
    rw [ofSource, hscan] at h
    cases h
  | ok ts =>
    rw [ofSource, hscan] at h
    exact ⟨ts, rfl, Except.mapError_eq_ok.1 h⟩

/-- A source that compiles is a sequence of tokens that spells its program. -/
theorem Program.exists_derives_of_ofSource {src : Text} {p : Program} (h : ofSource src = .ok p) :
    ∃ ts, scan src = .ok ts ∧ Derives Token.MayRead (.program p) ts := by
  obtain ⟨ts, hscan, parsed⟩ := exists_tokens_of_ofSource h
  exact ⟨ts, hscan, derives_of_ofTokens (kinds_of_scan hscan) (fun _ _ _ may => may) parsed⟩

/-- The expressions of a program that was compiled from a source are as the grammar has them. -/
theorem Program.isGrammatical_of_ofSource {src : Text} {p : Program} (h : ofSource src = .ok p) :
    ∀ e ∈ p.expressions, e.IsGrammatical := by
  obtain ⟨ts, _, derived⟩ := exists_derives_of_ofSource h
  exact derived.forall_expressions (yields_isGrammatical ts)

end Pseudocode

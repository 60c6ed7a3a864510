import Pseudocode.Proofs.Program.Parts

/-!
# Programs without their places

Where a token stands decides nothing but the places of the nodes that are made of it. A source with
blank lines in front of it has the same tokens further down, so it is a program exactly when it is
one without these lines, and the two programs are the same up to their places.

`bare` takes the places out: of tokens, of trees, and of what the parser has read so far.
-/

namespace Pseudocode

/-- A token without its place. -/
def Token.bare (t : Token) : Token := { t with loc := none }

@[simp] theorem Token.bare_kind (t : Token) : t.bare.kind = t.kind := rfl

@[simp] theorem Token.bare_value (t : Token) : t.bare.value = t.value := rfl

@[simp] theorem Token.bare_loc (t : Token) : t.bare.loc = none := rfl

@[simp] theorem Token.bare_isOperator (t : Token) (symbol : String) :
    t.bare.isOperator symbol = t.isOperator symbol := rfl

mutual

/-- An expression without its places. -/
def Expr.bare : Expr → Expr
  | .text _ value => .text none value
  | .number _ value => .number none value
  | .boolean _ value => .boolean none value
  | .name _ x => .name none x
  | .unary _ op e => .unary none op e.bare
  | .binary _ op a b => .binary none op a.bare b.bare
  | .element _ array index => .element none array index.bare
  | .call _ function args => .call none function (bareAll args)

/-- Expressions without their places. -/
def bareAll : List Expr → List Expr
  | [] => []
  | e :: rest => e.bare :: bareAll rest

end

theorem bareAll_eq (es : List Expr) : bareAll es = es.map Expr.bare := by
  induction es with
  | nil => rfl
  | cons e rest ih => rw [bareAll, ih, List.map_cons]

/-- A variable to read into, without its place. -/
def Target.bare (t : Target) : Target := { t with loc := none }

mutual

/-- A statement without its places. -/
def Stmt.bare : Stmt → Stmt
  | .assign _ name e => .assign none name e.bare
  | .dimension _ name size => .dimension none name size.bare
  | .assignElement _ array index e => .assignElement none array index.bare e.bare
  | .print _ exprs => .print none (exprs.map Expr.bare)
  | .read _ targets => .read none (targets.map Target.bare)
  | .branch _ cond yes no => .branch none cond.bare (bareBlock yes) (bareElse no)
  | .select _ subject cases otherwise =>
    .select none subject.bare (bareCases cases) (bareBlock otherwise)
  | .whileLoop _ cond body => .whileLoop none cond.bare (bareBlock body)
  | .repeatLoop _ body cond => .repeatLoop none (bareBlock body) cond.bare
  | .forLoop _ var first last step body => .forLoop none var first last step (bareBlock body)

/-- Statements without their places. -/
def bareBlock : List Stmt → List Stmt
  | [] => []
  | s :: rest => s.bare :: bareBlock rest

/-- The second branch without its places. -/
def bareElse : Option (List Stmt) → Option (List Stmt)
  | none => none
  | some body => some (bareBlock body)

/-- Labels and their blocks without places. -/
def bareCases : List (Expr × List Stmt) → List (Expr × List Stmt)
  | [] => []
  | (label, body) :: rest => (label.bare, bareBlock body) :: bareCases rest

end

theorem bareBlock_eq (ss : List Stmt) : bareBlock ss = ss.map Stmt.bare := by
  induction ss with
  | nil => rfl
  | cons s rest ih => rw [bareBlock, ih, List.map_cons]

theorem bareCases_append (cs : List (Expr × List Stmt)) (label : Expr) (body : List Stmt) :
    bareCases (cs ++ [(label, body)]) = bareCases cs ++ [(label.bare, body.map Stmt.bare)] := by
  induction cs with
  | nil => simp [bareCases, bareBlock_eq]
  | cons c rest ih => rw [List.cons_append, bareCases, ih, bareCases, List.cons_append]

/-- A program without its places. -/
def Program.bare (p : Program) : Program := ⟨p.name, p.body.map Stmt.bare⟩

/-- A parse error without the place of its token. -/
def ParseError.bare (e : ParseError) : ParseError := { e with token := e.token.bare }

namespace Parser

/-- A left operand without places. -/
def Pending.bare (p : Pending) : Pending := ⟨none, p.op, p.lhs.bare⟩

/-- A gap without places. -/
def Gap.bare (g : Gap) : Gap := ⟨g.pending.map Pending.bare, g.minus.map fun _ => none⟩

/-- A bracket without places. -/
def Bracket.bare : Bracket → Bracket
  | group => group
  | index _ array => index none array
  | argument _ function done => argument none function (done.map Expr.bare)

/-- Brackets without places. -/
def Brackets.bare (brackets : Brackets) : Brackets :=
  brackets.map fun entry => (entry.1.bare, entry.2.bare)

/-- Cases without places. -/
def Selection.bare (s : Selection) : Selection := ⟨none, s.subject.bare, bareCases s.cases⟩

/-- The start of a statement without places. -/
def Opening.bare : Opening → Opening
  | print _ done => print none (done.map Expr.bare)
  | branch _ => branch none
  | caseLabel selection => caseLabel selection.bare
  | whileLoop _ => whileLoop none
  | repeatLoop _ body => repeatLoop none (body.map Stmt.bare)
  | dimension _ name => dimension none name
  | elementIndex _ array => elementIndex none array
  | assign _ name => assign none name
  | assignElement _ array index => assignElement none array index.bare

/-- The start of a statement with a block, without places. -/
def Enclosing.bare : Enclosing → Enclosing
  | yes _ cond => yes none cond.bare
  | no _ cond body => no none cond.bare (body.map Stmt.bare)
  | caseBody selection label => caseBody selection.bare label.bare
  | otherwise selection => otherwise selection.bare
  | whileBody _ cond => whileBody none cond.bare
  | repeatBody _ => repeatBody none
  | forBody _ var first last step => forBody none var first last step

/-- Open blocks without places. -/
def Blocks.bare (b : Blocks) : Blocks :=
  ⟨b.program, b.done.map Stmt.bare, b.outer.map fun entry => (entry.1.map Stmt.bare, entry.2.bare)⟩

/-- The fixed part of a statement without places. -/
def Header.bare : Header → Header
  | readTarget _ done => readTarget none (done.map Target.bare)
  | readNext _ done => readNext none (done.map Target.bare)
  | selectSubject _ => selectSubject none
  | selectHacer _ subject => selectHacer none subject.bare
  | selectCase selection => selectCase selection.bare
  | selectOtro selection => selectOtro selection.bare
  | selectModo selection => selectModo selection.bare
  | selectColon selection => selectColon selection.bare
  | repeatQue _ body => repeatQue none (body.map Stmt.bare)
  | forVar _ => forVar none
  | forArrow _ var => forArrow none var
  | forFirst _ var minus => forFirst none var minus
  | forHasta _ var first => forHasta none var first
  | forLast _ var first minus => forLast none var first minus
  | forCon _ var first last => forCon none var first last
  | forPaso _ var first last => forPaso none var first last
  | forStep _ var first last minus => forStep none var first last minus
  | forHacer _ var first last step => forHacer none var first last step
  | dimensionName _ => dimensionName none
  | dimensionBracket _ name => dimensionBracket none name
  | assignTarget _ name => assignTarget none name
  | assignArrow _ array index => assignArrow none array index.bare

/-- What has been read, without places. -/
def State.bare : State → State
  | start => start
  | title => title
  | block b => block b.bare
  | header b h => header b.bare h.bare
  | operand b o brackets gap => operand b.bare o.bare brackets.bare gap.bare
  | named b o brackets gap _ name => named b.bare o.bare brackets.bare gap.bare none name
  | arguments b o brackets gap _ function =>
    arguments b.bare o.bare brackets.bare gap.bare none function
  | value b o brackets e => value b.bare o.bare brackets.bare e.bare
  | ended p => ended p.bare
  | closed p => closed p.bare

/-- A result and what it is without places: the same error, or the same state. -/
def SameResult (r r' : Except ParseError State) : Prop :=
  r' = r.view ParseError.bare State.bare

section Steps

variable {t : Token}

@[simp] theorem Gap.bare_fill (g : Gap) (e : Expr) : (g.fill e).bare = g.bare.fill e.bare := by
  obtain ⟨pending, minus⟩ := g
  cases pending with
  | _ =>
    cases minus with
    | _ => rfl

@[simp] theorem Blocks.bare_done (b : Blocks) : b.bare.done = b.done.map Stmt.bare := rfl

@[simp] theorem Blocks.bare_add (b : Blocks) (s : Stmt) : (b.add s).bare = b.bare.add s.bare := by
  simp [Blocks.bare, Blocks.add]

theorem sameResult_ok (s : State) : SameResult (.ok s) (.ok s.bare) := rfl

theorem sameResult_error (e : ParseError) : SameResult (.error e) (.error e.bare) := rfl

theorem sameResult_ite {c : Prop} [Decidable c] {a a' b b' : Except ParseError State}
    (yes : SameResult a a') (no : SameResult b b') :
    SameResult (if c then a else b) (if c then a' else b') := by
  split
  · exact yes
  · exact no

theorem sameResult_require (what : Expectation) (ok : Bool) (next : State) :
    SameResult (require t what ok next) (require t.bare what ok next.bare) :=
  sameResult_ite (sameResult_ok next) (sameResult_error _)

theorem sameResult_requireKeyword (k : Keyword) (next : State) :
    SameResult (requireKeyword t k next) (requireKeyword t.bare k next.bare) :=
  sameResult_require _ _ next

theorem sameResult_requireKind (kind : Token.Kind) (next : State) :
    SameResult (requireKind t kind next) (requireKind t.bare kind next.bare) :=
  sameResult_require _ _ next

theorem sameResult_requireName {next next' : Text → State}
    (same : ∀ name, next' name = (next name).bare) :
    SameResult (requireName t next) (requireName t.bare next') := by
  refine sameResult_ite (sameResult_error _) (sameResult_ite (sameResult_error _) ?_)
  rw [same]
  exact sameResult_ok _

theorem sameResult_requireNumber {minus : Bool} {signed : State} {next next' : Number → State}
    (same : ∀ n, next' n = (next n).bare) :
    SameResult (requireNumber t minus signed next)
      (requireNumber t.bare minus signed.bare next') := by
  refine sameResult_ite (sameResult_ok signed) (sameResult_ite (sameResult_error _) ?_)
  rw [Token.bare_value]
  cases Number.ofText? t.value with
  | none => exact sameResult_error _
  | some n =>
    dsimp only
    rw [same]
    exact sameResult_ok _

theorem sameResult_statementStep (b : Blocks) :
    SameResult (statementStep b t) (statementStep b.bare t.bare) := by
  simp only [statementStep, Token.bare_kind, Token.bare_value, Token.bare_loc]
  cases t.kind with
  | keyword =>
    dsimp only
    cases Keyword.ofText? t.value with
    | none => exact sameResult_error _
    | some k =>
      cases k with
      | _ => rfl
  | _ => rfl

theorem sameResult_statementOr (b : Blocks) (closing : Keyword) :
    SameResult (statementOr b closing t) (statementOr b.bare closing t.bare) :=
  sameResult_ite (sameResult_error _) (sameResult_statementStep b)

theorem sameResult_selectionStep (b : Blocks) (s : Selection)
    {other other' : Except ParseError State} (same : SameResult other other') :
    SameResult (selectionStep b s t other) (selectionStep b.bare s.bare t.bare other') := by
  refine sameResult_ite rfl (sameResult_ite rfl (sameResult_ite ?_ same))
  simp [SameResult, State.bare, Stmt.bare, Selection.bare, bareBlock]

/-- A statement that is added to a block. -/
theorem sameResult_add (b : Blocks) {s s' : Stmt} (same : s' = s.bare) :
    SameResult (.ok (.block (b.add s))) (.ok (.block (b.bare.add s'))) := by
  rw [same, ← Blocks.bare_add]
  exact sameResult_ok (.block (b.add s))

theorem sameResult_blockStep (b : Blocks) :
    SameResult (blockStep b t) (blockStep b.bare t.bare) := by
  obtain ⟨program, done, outer⟩ := b
  cases outer with
  | nil => exact sameResult_ite rfl (sameResult_statementOr _ _)
  | cons head outer =>
    obtain ⟨before, enclosing⟩ := head
    cases enclosing with
    | yes loc cond =>
      refine sameResult_ite rfl (sameResult_ite ?_ (sameResult_statementOr _ _))
      exact sameResult_add ⟨program, before, outer⟩ (by simp [Stmt.bare, bareBlock_eq, bareElse])
    | no loc cond yes =>
      refine sameResult_ite ?_ (sameResult_statementOr _ _)
      exact sameResult_add ⟨program, before, outer⟩ (by simp [Stmt.bare, bareBlock_eq, bareElse])
    | caseBody s label =>
      have same : Selection.bare { s with cases := s.cases ++ [(label, done)] } =
          { s.bare with cases := s.bare.cases ++ [(label.bare, done.map Stmt.bare)] } := by
        simp [Selection.bare, bareCases_append]
      refine Eq.trans ?_ (sameResult_selectionStep ⟨program, before, outer⟩
        { s with cases := s.cases ++ [(label, done)] } (sameResult_statementOr _ .finSegun))
      rw [same]
      rfl
    | otherwise s =>
      refine sameResult_ite ?_ (sameResult_statementOr _ _)
      exact sameResult_add ⟨program, before, outer⟩
        (by simp [Stmt.bare, bareBlock_eq, Selection.bare])
    | whileBody loc cond =>
      refine sameResult_ite ?_ (sameResult_statementOr _ _)
      exact sameResult_add ⟨program, before, outer⟩ (by simp [Stmt.bare, bareBlock_eq])
    | repeatBody loc => exact sameResult_ite rfl (sameResult_statementOr _ _)
    | forBody loc var first last step =>
      refine sameResult_ite ?_ (sameResult_statementOr _ _)
      exact sameResult_add ⟨program, before, outer⟩ (by simp [Stmt.bare, bareBlock_eq])

theorem sameResult_headerStep (b : Blocks) (h : Header) :
    SameResult (headerStep b h t) (headerStep b.bare h.bare t.bare) := by
  cases h with
  | readTarget loc done =>
    simp only [headerStep, Header.bare]
    refine sameResult_requireName fun name => ?_
    simp [State.bare, Header.bare, Target.bare]
  | readNext loc done =>
    refine sameResult_ite rfl ?_
    have same : Blocks.bare (b.add (.read loc done)) =
        b.bare.add (.read none (done.map Target.bare)) := by
      rw [Blocks.bare_add, Stmt.bare]
    rw [← same]
    exact sameResult_blockStep _
  | selectSubject loc =>
    simp only [headerStep, Header.bare, Token.bare_value, Token.bare_loc]
    cases constant? t.value with
    | _ => exact sameResult_requireKind _ _
  | selectCase s => exact sameResult_selectionStep b s (sameResult_error _)
  | selectColon s => exact sameResult_require _ _ _
  | selectHacer | selectOtro | selectModo | repeatQue | forHasta | forPaso | forHacer =>
    exact sameResult_requireKeyword _ _
  | forVar | dimensionName =>
    simp only [headerStep, Header.bare]
    exact sameResult_requireName fun _ => rfl
  | forArrow | dimensionBracket => exact sameResult_requireKind _ _
  | forFirst | forLast | forStep =>
    simp only [headerStep, Header.bare]
    exact sameResult_requireNumber fun _ => rfl
  | forCon => exact sameResult_ite rfl (sameResult_requireKeyword _ _)
  | assignTarget loc name =>
    exact sameResult_ite rfl (sameResult_ite rfl (sameResult_ite rfl rfl))
  | assignArrow loc array index => exact sameResult_ite rfl (sameResult_ite rfl rfl)

theorem sameResult_operandStep (b : Blocks) (o : Opening) (brackets : Brackets) (gap : Gap) :
    SameResult (operandStep b o brackets gap t)
      (operandStep b.bare o.bare brackets.bare gap.bare t.bare) := by
  have filled (e : Expr) : SameResult (.ok (.value b o brackets (gap.fill e)))
      (.ok (.value b.bare o.bare brackets.bare (gap.bare.fill e.bare))) := by
    rw [← Gap.bare_fill]
    exact sameResult_ok _
  have minus : gap.bare.minus.isNone = gap.minus.isNone := by simp [Gap.bare]
  simp only [operandStep, minus, Token.bare_kind, Token.bare_value, Token.bare_isOperator,
    Token.bare_loc]
  refine sameResult_ite rfl ?_
  cases t.kind with
  | identifier =>
    dsimp only
    cases constant? t.value with
    | none => rfl
    | some v => exact filled (.number t.loc v)
  | string => exact filled (.text t.loc t.value)
  | number =>
    dsimp only
    cases Number.ofText? t.value with
    | none => rfl
    | some n => exact filled (.number t.loc n)
  | boolean => exact filled (.boolean t.loc _)
  | _ => rfl

theorem sameResult_openingStep (b : Blocks) (o : Opening) (e : Expr) :
    SameResult (openingStep b o e t) (openingStep b.bare o.bare e.bare t.bare) := by
  have ended {s s' : Stmt} (same : s' = s.bare) :
      SameResult (blockStep (b.add s) t) (blockStep (b.bare.add s') t.bare) := by
    rw [same, ← Blocks.bare_add]
    exact sameResult_blockStep _
  cases o with
  | print loc done =>
    refine sameResult_ite ?_ (ended (by simp [Stmt.bare]))
    simp [SameResult, expression, State.bare, Opening.bare, Brackets.bare,
      Gap.bare, Gap.start]
  | branch | whileLoop => exact sameResult_requireKeyword _ _
  | caseLabel => exact sameResult_require _ _ _
  | repeatLoop => exact ended (by simp [Stmt.bare, bareBlock_eq])
  | dimension loc name =>
    refine Eq.trans ?_ (sameResult_requireKind .closeBracket _)
    simp [openingStep, Opening.bare, State.bare, Stmt.bare]
  | elementIndex => exact sameResult_requireKind _ _
  | assign | assignElement => exact ended (by simp [Stmt.bare])

theorem sameResult_valueStep (b : Blocks) (o : Opening) (brackets : Brackets) (e : Expr) :
    SameResult (valueStep b o brackets e t)
      (valueStep b.bare o.bare brackets.bare e.bare t.bare) := by
  rw [valueStep.eq_def, valueStep.eq_def]
  refine sameResult_ite rfl ?_
  cases brackets with
  | nil => exact sameResult_openingStep b o e
  | cons first outer =>
    obtain ⟨gap, bracket⟩ := first
    cases bracket with
    | group =>
      refine Eq.trans ?_ (sameResult_requireKind .closeParen _)
      simp [Brackets.bare, Bracket.bare, State.bare]
    | index loc array =>
      refine Eq.trans ?_ (sameResult_requireKind .closeBracket _)
      simp [Brackets.bare, Bracket.bare, State.bare, Expr.bare]
    | argument loc function done =>
      refine sameResult_ite ?_ ?_
      · simp [SameResult, State.bare, Brackets.bare, Bracket.bare, Gap.bare,
          Gap.start]
      · refine Eq.trans ?_ (sameResult_requireKind .closeParen _)
        simp [Brackets.bare, Bracket.bare, State.bare, Expr.bare, bareAll_eq]

theorem sameResult_step (s : State) : SameResult (step s t) (step s.bare t.bare) := by
  cases s with
  | start => exact sameResult_requireKeyword _ _
  | title => exact sameResult_require _ _ _
  | block b => exact sameResult_blockStep b
  | header b h => exact sameResult_headerStep b h
  | operand b o brackets gap => exact sameResult_operandStep b o brackets gap
  | named b o brackets gap loc name =>
    refine sameResult_ite rfl (sameResult_ite rfl ?_)
    have same : (gap.fill (.name loc name)).bare = gap.bare.fill (.name none name) := by
      rw [Gap.bare_fill, Expr.bare]
    rw [← same]
    exact sameResult_valueStep b o brackets _
  | arguments b o brackets gap loc function =>
    refine sameResult_ite ?_ (sameResult_operandStep b o _ _)
    simp [SameResult, State.bare, Expr.bare, bareAll]
  | value b o brackets e => exact sameResult_valueStep b o brackets e
  | ended p => exact sameResult_require _ _ _
  | closed p => rfl

end Steps

/-- A step on the same state and token, up to places, has the same result, up to places. -/
theorem view_step_eq {s s' : State} {t t' : Token} (states : s.bare = s'.bare)
    (tokens : t.bare = t'.bare) :
    (step s t).view ParseError.bare State.bare = (step s' t').view ParseError.bare State.bare := by
  have first : SameResult (step s t) (step s.bare t.bare) := sameResult_step s
  have second : SameResult (step s' t') (step s'.bare t'.bare) := sameResult_step s'
  rw [states, tokens] at first
  exact first.symm.trans second

theorem view_run_eq {ts ts' : List Token} (tokens : ts.map Token.bare = ts'.map Token.bare)
    {s s' : State} (states : s.bare = s'.bare) :
    (ts.foldlM step s).view ParseError.bare State.bare =
      (ts'.foldlM step s').view ParseError.bare State.bare := by
  induction ts generalizing s ts' s' with
  | nil =>
    obtain rfl : ts' = [] := List.map_eq_nil_iff.1 tokens.symm
    exact congrArg Except.ok states
  | cons t ts ih =>
    cases ts' with
    | nil => cases tokens
    | cons t' ts' =>
      obtain ⟨first, rest⟩ := List.cons.inj tokens
      rw [List.foldlM_cons, List.foldlM_cons]
      exact Except.view_bind_congr (view_step_eq states first) fun _ _ same => ih rest same

theorem view_finish_eq {s s' : State} {t t' : Token} (states : s.bare = s'.bare)
    (tokens : t.bare = t'.bare) :
    (finish s t).view ParseError.bare Program.bare =
      (finish s' t').view ParseError.bare Program.bare := by
  refine Except.view_bind_congr (view_step_eq states tokens) fun last last' same => ?_
  have refused : (expected t .programEnd : Except ParseError Program).view
        ParseError.bare Program.bare =
      (expected t' .programEnd : Except ParseError Program).view
        ParseError.bare Program.bare := by
    simp only [expected, Except.view_error, ParseError.bare, tokens]
  cases last with
  | closed p =>
    cases last' with
    | closed p' => exact congrArg Except.ok (State.closed.inj same)
    | _ => cases same
  | _ =>
    cases last' with
    | closed p' => cases same
    | _ => exact refused

end Parser

open Except (SameUpTo)

namespace Program

/-- Tokens that differ in their places are the same program, or have the same error, up to
places. -/
theorem view_ofTokens_eq {ts ts' : List Token} (tokens : ts.map Token.bare = ts'.map Token.bare) :
    (ofTokens ts).view ParseError.bare Program.bare =
      (ofTokens ts').view ParseError.bare Program.bare :=
  Except.view_bind_congr (Parser.view_run_eq tokens rfl) fun _ _ same =>
    Parser.view_finish_eq same rfl

/-- Tokens that differ in their places are the same program up to places. -/
theorem sameUpTo_ofTokens {ts ts' : List Token} (tokens : ts.map Token.bare = ts'.map Token.bare) :
    SameUpTo Program.bare (ofTokens ts) (ofTokens ts') :=
  Except.sameUpTo_of_view_eq (view_ofTokens_eq tokens)

end Program

namespace Scanner

/-- A lexeme under way without its place. -/
def Mode.bare : Mode → Mode
  | between => between
  | number _ digits => number .origin digits
  | word _ letters => word .origin letters
  | string _ body => string .origin body
  | slash _ => slash .origin
  | less _ => less .origin
  | greater _ => greater .origin
  | comment => comment

/-- The state of a scanner without places. -/
def bare (s : Scanner) : Mode × List Token := (s.mode.bare, s.tokens.map Token.bare)

/-- A lexeme and a token that are made, without places. -/
def bareMade (made : Mode × Option Token) : Mode × Option Token :=
  (made.1.bare, made.2.map Token.bare)

variable {m m' : Mode}

theorem extend?_bare (same : m.bare = m'.bare) (c : Char) :
    (m.extend? c).map bareMade = (m'.extend? c).map bareMade := by
  cases m with
  | _ =>
    cases m' with
    | _ => cases same <;> grind [bareMade, Mode.bare, Mode.extend?, token, Token.bare]

theorem sameUpTo_close (same : m.bare = m'.bare) :
    SameUpTo (Option.map Token.bare) m.close m'.close := by
  cases m with
  | _ =>
    cases m' with
    | _ => cases same <;> rfl

theorem sameUpTo_start (here there : Location) (c : Char) :
    SameUpTo bareMade (start here c) (start there c) := by
  refine .ite rfl (.ite rfl (.ite rfl (.ite rfl (.ite rfl (.ite rfl (.ite rfl (.ite rfl ?_)))))))
  cases punctuation? c with
  | _ => rfl

variable {s s' : Scanner}

theorem map_bare_append {made made' : Option Token} {toks toks' : List Token}
    (first : made.map Token.bare = made'.map Token.bare)
    (rest : toks.map Token.bare = toks'.map Token.bare) :
    (made.toList ++ toks).map Token.bare = (made'.toList ++ toks').map Token.bare := by
  rw [List.map_append, List.map_append, rest, ← Option.toList_map, ← Option.toList_map, first]

theorem sameUpTo_step (same : s.bare = s'.bare) (c : Char) :
    SameUpTo bare (step s c) (step s' c) := by
  obtain ⟨modes, tokens⟩ := Prod.mk.inj same
  have extended := extend?_bare modes c
  unfold step
  cases h : s.mode.extend? c with
  | some made =>
    cases h' : s'.mode.extend? c with
    | none =>
      rw [h, h'] at extended
      cases extended
    | some made' =>
      rw [h, h'] at extended
      obtain ⟨mode, token⟩ := Prod.mk.inj (Option.some.inj extended)
      exact congrArg some (Prod.ext mode (map_bare_append token tokens))
  | none =>
    cases h' : s'.mode.extend? c with
    | some made' =>
      rw [h, h'] at extended
      cases extended
    | none =>
      refine (sameUpTo_close modes).bind fun closed closed' sameClosed => ?_
      refine (sameUpTo_start s.here s'.here c).bind fun made made' sameMade => ?_
      obtain ⟨mode, token⟩ := Prod.mk.inj sameMade
      exact congrArg some
        (Prod.ext mode (map_bare_append token (map_bare_append sameClosed tokens)))

theorem sameUpTo_run (cs : List Char) (same : s.bare = s'.bare) :
    SameUpTo bare (cs.foldlM step s) (cs.foldlM step s') := by
  induction cs generalizing s s' with
  | nil => exact congrArg some same
  | cons c cs ih =>
    rw [List.foldlM_cons, List.foldlM_cons]
    exact (sameUpTo_step same c).bind fun _ _ same' => ih same'

theorem sameUpTo_finish (same : s.bare = s'.bare) :
    SameUpTo (List.map Token.bare) s.finish s'.finish := by
  obtain ⟨modes, tokens⟩ := Prod.mk.inj same
  refine (sameUpTo_close modes).bind fun closed closed' sameClosed => ?_
  refine congrArg some ?_
  rw [List.map_reverse, List.map_reverse, map_bare_append sameClosed tokens]

/-- Blank characters are passed over. -/
theorem run_blank {cs : List Char} (blank : cs.all isBlank = true) (here : Location)
    (toks : List Token) :
    ∃ here', cs.foldlM step ⟨.between, here, toks⟩ = .ok ⟨.between, here', toks⟩ := by
  induction cs generalizing here with
  | nil => exact ⟨here, rfl⟩
  | cons c cs ih =>
    rw [List.all_cons, Bool.and_eq_true] at blank
    have first : step ⟨.between, here, toks⟩ c = .ok ⟨.between, here.advance c, toks⟩ := by
      simp [step, Mode.extend?, Mode.close, start, blank.1, bind, Except.bind, pure, Except.pure]
    obtain ⟨here', rest⟩ := ih blank.2 (here.advance c)
    exact ⟨here', by rw [List.foldlM_cons, first]; exact rest⟩

end Scanner

/-- Blank lines, or none. -/
structure Text.AreBlankLines (t : Text) : Prop where
  blank : t.isBlank = true
  lines : t = Text.empty ∨ t.EndsLine

namespace Text.AreBlankLines

variable {a b : Text}

theorem empty : AreBlankLines Text.empty := ⟨rfl, .inl rfl⟩

theorem append (first : a.AreBlankLines) (blank : b.isBlank = true) (ends : b.EndsLine) :
    (a ++ b).AreBlankLines := by
  refine ⟨?_, .inr (ends.append a)⟩
  rcases first.lines with rfl | endsLine
  · rwa [Text.empty_append]
  · obtain ⟨_, _, happend⟩ := endsLine.chars_append
    rw [isBlank, happend, List.all_append, Bool.and_eq_true]
    exact ⟨first.blank, blank⟩

/-- Blank lines in front of a source change only the places of its tokens. -/
theorem sameUpTo_scan (blanks : a.AreBlankLines) (src : Text) :
    SameUpTo (List.map Token.bare) (scan (a ++ src)) (scan src) := by
  obtain ⟨blank, rfl | endsLine⟩ := blanks
  · rw [Text.empty_append]
    rfl
  · obtain ⟨_, _, happend⟩ := endsLine.chars_append
    obtain ⟨here, passed⟩ := Scanner.run_blank blank .origin []
    rw [scan, scanChars, happend, Scanner.initial, Except.foldlM_append_of_ok passed]
    have start : Scanner.bare ⟨.between, here, []⟩ = Scanner.initial.bare := rfl
    exact (Scanner.sameUpTo_run src.chars start).bind fun _ _ same =>
      Scanner.sameUpTo_finish same

/-- A source is a program exactly when it is one behind blank lines, and up to places it is the
same. -/
theorem sameUpTo_ofSource (blanks : a.AreBlankLines) (src : Text) :
    SameUpTo Program.bare (Program.ofSource (a ++ src)) (Program.ofSource src) := by
  have tokens := blanks.sameUpTo_scan src
  rw [Program.ofSource, Program.ofSource]
  cases h : scan (a ++ src) with
  | error e =>
    rw [h] at tokens
    cases h' : scan src with
    | error e' => rfl
    | ok ts' =>
      rw [h'] at tokens
      cases tokens
  | ok ts =>
    obtain ⟨ts', h', same⟩ := tokens.exists_ok h
    rw [h']
    exact (Program.sameUpTo_ofTokens same.symm).mapError

/-- Blank lines are no program. -/
theorem ofSource_ne_ok (blanks : a.AreBlankLines) (p : Program) : Program.ofSource a ≠ .ok p := by
  intro compiled
  rw [← a.append_empty] at compiled
  obtain ⟨_, none, _⟩ := (blanks.sameUpTo_ofSource Text.empty).exists_ok compiled
  cases none

end Text.AreBlankLines

end Pseudocode

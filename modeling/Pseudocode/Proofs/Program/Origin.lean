import Pseudocode.Proofs.Program.Parts

/-!
# Where the places of a program come from

Every node of a program has the place of a token that it was read from. And the parser refuses a
token at the place of that token: the one it has just been given, or, where a constant was to be
assigned, the name in front of the arrow, whose place it has kept until then.
-/

namespace Pseudocode

namespace Parser

/-- The place of a name that may yet be to blame, since an arrow may follow. -/
def Opening.blamed? : Opening → Option (Option Location)
  | elementIndex loc _ => some loc
  | _ => none

/-- The place of a name that may yet be to blame. -/
def Header.blamed? : Header → Option (Option Location)
  | assignTarget loc _ | assignArrow loc _ _ => some loc
  | _ => none

/-- The place of a name that may yet be to blame. -/
def State.blamed? : State → Option (Option Location)
  | header _ h => h.blamed?
  | operand _ o _ _ | named _ o _ _ _ _ | arguments _ o _ _ _ _ | value _ o _ _ => o.blamed?
  | start | title | block _ | ended _ | closed _ => none

/-- What is to blame, now or later, has a place with a property. -/
structure Blames (P : Option Location → Prop) (r : Except ParseError State) : Prop where
  later ⦃s : State⦄ : r = .ok s → ∀ loc ∈ s.blamed?, P loc
  now ⦃e : ParseError⦄ : r = .error e → P e.token.loc

section Steps

variable {P : Option Location → Prop} {t : Token}

theorem blames_ok {s : State} (h : ∀ loc ∈ s.blamed?, P loc) : Blames P (.ok s) where
  later _ same := by
    cases same
    exact h
  now _ same := by cases same

theorem forall_blamed_of_none {s : State} (free : s.blamed? = none) :
    ∀ loc ∈ s.blamed?, P loc := by
  intro loc mem
  rw [free] at mem
  cases mem

theorem blames_free {s : State} (free : s.blamed? = none) : Blames P (.ok s) :=
  blames_ok (forall_blamed_of_none free)

theorem blames_error {e : ParseError} (h : P e.token.loc) : Blames P (.error e) where
  later _ same := by cases same
  now _ same := by
    cases same
    exact h

theorem blames_ite {c : Prop} [Decidable c] {a b : Except ParseError State} (yes : Blames P a)
    (no : Blames P b) : Blames P (if c then a else b) := by
  split
  · exact yes
  · exact no

variable (own : P t.loc)
include own

theorem blames_require (what : Expectation) (ok : Bool) {next : State}
    (h : ∀ loc ∈ next.blamed?, P loc) : Blames P (require t what ok next) :=
  blames_ite (blames_ok h) (blames_error own)

theorem blames_requireKeyword (k : Keyword) {next : State} (free : next.blamed? = none) :
    Blames P (requireKeyword t k next) :=
  blames_ite (blames_free free) (blames_error own)

theorem blames_requireKind (kind : Token.Kind) {next : State}
    (h : ∀ loc ∈ next.blamed?, P loc) : Blames P (requireKind t kind next) :=
  blames_require own _ _ h

theorem blames_requireName {next : Text → State} (free : ∀ name, (next name).blamed? = none) :
    Blames P (requireName t next) :=
  blames_ite (blames_error own) (blames_ite (blames_error own) (blames_free (free _)))

theorem blames_requireNumber {minus : Bool} {signed : State} {next : Number → State}
    (free : signed.blamed? = none) (frees : ∀ n, (next n).blamed? = none) :
    Blames P (requireNumber t minus signed next) := by
  refine blames_ite (blames_free free) (blames_ite (blames_error own) ?_)
  cases Number.ofText? t.value with
  | none => exact blames_error own
  | some n => exact blames_free (frees _)

theorem blames_statementStep (b : Blocks) : Blames P (statementStep b t) := by
  have name : Blames P (.ok (.header b (.assignTarget t.loc t.value))) :=
    blames_ok fun loc mem => by
      cases mem
      exact own
  simp only [statementStep]
  cases t.kind with
  | identifier => exact name
  | keyword =>
    dsimp only
    cases Keyword.ofText? t.value with
    | none => exact blames_error own
    | some k =>
      cases k with
      | escribir | leer | si | segun | mientras | repetir | para | dimension =>
        exact blames_free rfl
      | _ => exact blames_error own
  | _ => exact blames_error own

theorem blames_statementOr (b : Blocks) (closing : Keyword) :
    Blames P (statementOr b closing t) :=
  blames_ite (blames_error own) (blames_statementStep own b)

omit own in
theorem blames_selectionStep (b : Blocks) (s : Selection) {other : Except ParseError State}
    (h : Blames P other) : Blames P (selectionStep b s t other) :=
  blames_ite (blames_free rfl) (blames_ite (blames_free rfl) (blames_ite (blames_free rfl) h))

theorem blames_blockStep (b : Blocks) : Blames P (blockStep b t) := by
  obtain ⟨program, done, outer⟩ := b
  cases outer with
  | nil => exact blames_ite (blames_free rfl) (blames_statementOr own _ _)
  | cons head outer =>
    obtain ⟨before, enclosing⟩ := head
    cases enclosing with
    | yes =>
      exact blames_ite (blames_free rfl) (blames_ite (blames_free rfl) (blames_statementOr own _ _))
    | caseBody => exact blames_selectionStep _ _ (blames_statementOr own _ _)
    | no | otherwise | whileBody | repeatBody | forBody =>
      exact blames_ite (blames_free rfl) (blames_statementOr own _ _)

theorem blames_headerStep (b : Blocks) {h : Header} (before : ∀ loc ∈ h.blamed?, P loc) :
    Blames P (headerStep b h t) := by
  cases h with
  | readTarget | forVar | dimensionName =>
    rw [headerStep]
    exact blames_requireName own fun _ => rfl
  | readNext => exact blames_ite (blames_free rfl) (blames_blockStep own _)
  | selectSubject | forArrow | dimensionBracket =>
    exact blames_requireKind own _ (forall_blamed_of_none rfl)
  | selectCase => exact blames_selectionStep _ _ (blames_error own)
  | selectColon => exact blames_require own _ _ (forall_blamed_of_none rfl)
  | selectHacer | selectOtro | selectModo | repeatQue | forHasta | forPaso | forHacer =>
    exact blames_requireKeyword own _ rfl
  | forFirst | forLast | forStep =>
    rw [headerStep]
    exact blames_requireNumber own rfl fun _ => rfl
  | forCon => exact blames_ite (blames_free rfl) (blames_requireKeyword own _ rfl)
  -- Here an arrow shows that a constant was to be assigned, and the name in front is to blame.
  | assignTarget loc name =>
    have kept : P loc := before loc rfl
    exact blames_ite (blames_ok before) (blames_ite (blames_error own)
      (blames_ite (blames_error kept) (blames_free rfl)))
  | assignArrow loc array index =>
    have kept : P loc := before loc rfl
    exact blames_ite (blames_error own) (blames_ite (blames_error kept) (blames_free rfl))

section Expressions

variable {o : Opening} (before : ∀ loc ∈ o.blamed?, P loc)
include before

theorem blames_operandStep (b : Blocks) (brackets : Brackets) (gap : Gap) :
    Blames P (operandStep b o brackets gap t) := by
  simp only [operandStep]
  refine blames_ite (blames_ok before) ?_
  cases t.kind with
  | identifier =>
    dsimp only
    cases constant? t.value with
    | _ => exact blames_ok before
  | number =>
    dsimp only
    cases Number.ofText? t.value with
    | none => exact blames_error own
    | some n => exact blames_ok before
  | openParen | string | boolean => exact blames_ok before
  | _ => exact blames_error own

theorem blames_openingStep (b : Blocks) (e : Expr) : Blames P (openingStep b o e t) := by
  cases o with
  | print => exact blames_ite (blames_free rfl) (blames_blockStep own _)
  | branch | whileLoop => exact blames_requireKeyword own _ rfl
  | caseLabel => exact blames_ite (blames_free rfl) (blames_error own)
  | repeatLoop | assign | assignElement => exact blames_blockStep own _
  | dimension => exact blames_ite (blames_free rfl) (blames_error own)
  | elementIndex => exact blames_requireKind own _ before

theorem blames_valueStep (b : Blocks) (brackets : Brackets) (e : Expr) :
    Blames P (valueStep b o brackets e t) := by
  rw [valueStep.eq_def]
  refine blames_ite (blames_ok before) ?_
  cases brackets with
  | nil => exact blames_openingStep own before b e
  | cons first outer =>
    obtain ⟨gap, bracket⟩ := first
    cases bracket with
    | group | index => exact blames_requireKind own _ before
    | argument =>
      exact blames_ite (blames_ok before) (blames_requireKind own _ before)

end Expressions

/-- A step keeps a place or takes it from its token. -/
theorem blames_step {s : State} (before : ∀ loc ∈ s.blamed?, P loc) : Blames P (step s t) := by
  cases s with
  | start => exact blames_requireKeyword own _ rfl
  | title => exact blames_ite (blames_free rfl) (blames_error own)
  | block b => exact blames_blockStep own b
  | header b h => exact blames_headerStep own b before
  | operand b o brackets gap => exact blames_operandStep own before b brackets gap
  | named b o brackets gap loc name =>
    exact blames_ite (blames_ok before) (blames_ite (blames_ok before)
      (blames_valueStep own before b brackets _))
  | arguments b o brackets gap loc function =>
    exact blames_ite (blames_ok before) (blames_operandStep own before b _ _)
  | value b o brackets e => exact blames_valueStep own before b brackets e
  | ended p => exact blames_ite (blames_free rfl) (blames_error own)
  | closed p => exact blames_free rfl

end Steps

theorem blames_run {P : Option Location → Prop} {ts : List Token} (own : ∀ t ∈ ts, P t.loc)
    {s : State} (before : ∀ loc ∈ s.blamed?, P loc) : Blames P (ts.foldlM step s) := by
  induction ts generalizing s with
  | nil => exact blames_ok before
  | cons t ts ih =>
    obtain ⟨first, others⟩ := List.forall_mem_cons.1 own
    have taken := blames_step first before
    rw [List.foldlM_cons]
    cases next : step s t with
    | error e => exact blames_error (taken.now next)
    | ok s' => exact ih others (taken.later next)

end Parser

/-- A parse error has the place of a token, or of the end, which has the place of the last token. -/
theorem Program.place_of_ofTokens {P : Option Location → Prop} {ts : List Token}
    (own : ∀ t ∈ ts, P t.loc) (ending : P (Token.ending ts).loc) {e : ParseError}
    (failed : ofTokens ts = .error e) : P e.token.loc := by
  have run := Parser.blames_run own (s := .start) (Parser.forall_blamed_of_none rfl)
  rw [ofTokens] at failed
  cases read : ts.foldlM Parser.step .start with
  | error e' =>
    rw [read] at failed
    cases failed
    exact run.now read
  | ok s =>
    rw [read] at failed
    have last := Parser.blames_step ending (run.later read)
    have finished : Parser.finish s (Token.ending ts) = .error e := failed
    rw [Parser.finish] at finished
    cases closed : Parser.step s (Token.ending ts) with
    | error e' =>
      rw [closed] at finished
      cases finished
      exact last.now closed
    | ok s' =>
      rw [closed] at finished
      cases s' with
      | closed p => cases finished
      | _ =>
        cases finished
        exact ending

/-- The variables that a statement reads into. -/
def Stmt.targets : Stmt → List Target
  | read _ targets => targets
  | assign _ _ _ | dimension _ _ _ | assignElement _ _ _ _ | print _ _ | branch _ _ _ _
  | select _ _ _ _ | whileLoop _ _ _ | repeatLoop _ _ _ | forLoop _ _ _ _ _ _ => []

/-- The places that a statement has itself, not in a statement inside it: its own, those of the
variables it reads into, and those of its expressions. -/
def Stmt.places (s : Stmt) : List (Option Location) :=
  s.loc :: s.targets.map Target.loc ++ s.expressions.map Expr.loc

/-- All places of a program. -/
def Program.places (p : Program) : List (Option Location) := p.statements.flatMap Stmt.places

/-- All places of a phrase. -/
def Phrase.places : Phrase → List (Option Location)
  | operand e | signed e | expr e | subject e => e.parts.map Expr.loc
  | exprs es => (partsOfAll es).map Expr.loc
  | targets xs => xs.map Target.loc
  | bound _ | stride _ => []
  | otherBranch no => (partsOfElse no).flatMap Stmt.places
  | cases cs => (partsOfAll (cs.map (·.1))).map Expr.loc ++ (partsOfCases cs).flatMap Stmt.places
  | otherwise ss | block ss => (partsOfBlock ss).flatMap Stmt.places
  | stmt s => s.parts.flatMap Stmt.places
  | program p => p.places

theorem Derives.forall_places {reads : Token → Keyword → Prop} {P : Option Location → Prop}
    {ph : Phrase} {ts : List Token} (h : Derives reads ph ts) (own : ∀ t ∈ ts, P t.loc) :
    ∀ loc ∈ ph.places, P loc := by
  induction h with
  -- An operand adds the place of its first token, an operation that of its operator.
  | text | number | boolean | constant | name | subjectName | subjectConstant | element | callNone
  | call | group | plain | negated | single | operation =>
    simp only [Phrase.places, Expr.parts, partsOfAll, Expr.loc, List.map_cons, List.map_nil,
      List.map_append, List.forall_mem_cons, List.forall_mem_append] at *
    grind
  -- A list has the places of what is added to it.
  | firstTarget | nextTarget | firstExpr | nextExpr | noStmts | nextStmt | noCases | nextCase =>
    simp only [Phrase.places, partsOfAll_eq, partsOfBlock_eq, partsOfCases_eq, List.map_cons,
      List.map_nil, List.map_append, List.flatMap_cons, List.flatMap_nil, List.flatMap_append,
      List.append_nil, List.forall_mem_cons, List.forall_mem_append] at *
    grind
  | boundAbove | boundBelow | strideOne | strideGiven | noOther | noOtherwise =>
    exact List.forall_mem_nil _
  | other | otherwise =>
    simp only [Phrase.places, partsOfElse, List.forall_mem_cons] at *
    grind
  -- A statement adds the place of its first token.
  | assign | dimension | assignElement | print | read | branch | select | whileLoop | repeatLoop
  | forLoop =>
    simp only [Phrase.places, Stmt.parts, Stmt.places, Stmt.targets, Stmt.expressions,
      Stmt.operands, Stmt.loc, partsOfAll, List.map_nil, List.map_append, List.flatMap_cons,
      List.flatMap_nil, List.flatMap_append, List.cons_append, List.nil_append, List.append_nil,
      List.forall_mem_cons, List.forall_mem_append] at *
    grind
  | program =>
    simp only [Phrase.places, Program.places, Program.statements, List.forall_mem_cons,
      List.forall_mem_append, List.cons_append] at *
    grind

/-- What a statement has itself stands at places with a property. -/
structure Stmt.IsPlaced (P : Option Location → Prop) (s : Stmt) : Prop where
  own : P s.loc
  targets : ∀ t ∈ s.targets, P t.loc
  expressions : ∀ e ∈ s.expressions, P e.loc

theorem Stmt.isPlaced_of_forall {P : Option Location → Prop} {s : Stmt}
    (all : ∀ loc ∈ s.places, P loc) : s.IsPlaced P where
  own := all _ List.mem_cons_self
  targets _ mem := all _ (List.mem_append_left _ (List.mem_cons_of_mem _ (List.mem_map_of_mem mem)))
  expressions _ mem := all _ (List.mem_append_right _ (List.mem_map_of_mem mem))

theorem Stmt.IsPlaced.operand {P : Option Location → Prop} {s : Stmt} (placed : s.IsPlaced P)
    {e : Expr} (mem : e ∈ s.operands) : ∀ a ∈ e.parts, P a.loc :=
  fun a part => placed.expressions a (mem_expressions mem part)

/-- All nodes of a compiled program have places of tokens of its source. -/
theorem Program.exists_isPlaced_of_ofSource {src : Text} {p : Program}
    (compiled : ofSource src = .ok p) :
    ∃ ts, scan src = .ok ts ∧ ∀ P : Option Location → Prop, (∀ t ∈ ts, P t.loc) →
      ∀ s ∈ p.statements, s.IsPlaced P := by
  obtain ⟨ts, scanned, derived⟩ := exists_derives_of_ofSource compiled
  refine ⟨ts, scanned, fun P own s mem => Stmt.isPlaced_of_forall fun loc placed => ?_⟩
  exact derived.forall_places own loc (List.mem_flatMap.2 ⟨s, mem, placed⟩)

end Pseudocode

import Pseudocode.Proofs.Program.Completeness
import Pseudocode.Proofs.Program.Parts
import Pseudocode.Proofs.Program.Refusal

/-!
# Sources that further text completes

From almost every state of the parser a few words lead to the end of a program: an operand, the
brackets and blocks that are still open closed one after another, and the last reserved word. The
exception is an assignment whose name is that of a constant. The name is looked at only when the
arrow comes, so until then the parser goes on although no arrow can follow.

The same is true of a string that is still open, since its tokens are not parsed before it is
closed: what stands in front of it may have been refused already.
-/

namespace Pseudocode

/-- A word that is scanned as one token wherever it stands between two lexemes. -/
structure Scanner.Spells (word : Text) (kind : Token.Kind) (value : Text) : Prop where
  ascii : word.IsAscii
  scanned (here : Location) (toks : List Token) : word.chars.foldlM step ⟨.between, here, toks⟩ =
    .ok ⟨.between, word.chars.foldl Location.advance here, ⟨kind, value, some here⟩ :: toks⟩

namespace Parser

open Scanner (Spells)
open Runs (requireKeyword_of_spells requireName_of_isName requireKind_of_kind
  requireNumber_of_number)

/-- Wherever the scanner has come to, a text leads from here to the end of a program. -/
def State.Completable (s : State) : Prop :=
  ∀ here, ∃ later : Text, later.IsAscii ∧ ∃ here' us s' p,
    (∀ toks, later.chars.foldlM Scanner.step ⟨.between, here, toks⟩ =
      .ok ⟨.between, here', us.reverse ++ toks⟩) ∧
    Leads s us s' ∧ (s' = .ended p ∨ s' = .closed p)

section Words

variable {s : State}

theorem completable_of_over {p : Program} (h : s = .ended p ∨ s = .closed p) : s.Completable :=
  fun here => ⟨Text.empty, by decide, here, [], s, p, fun _ => rfl, .nil s, h⟩

theorem completable_of_word {word value : Text} {kind : Token.Kind}
    (spells : Spells word kind value)
    (h : ∀ loc, ∃ s', step s ⟨kind, value, loc⟩ = .ok s' ∧ s'.Completable) : s.Completable := by
  intro here
  obtain ⟨s', hstep, completable⟩ := h (some here)
  obtain ⟨later, ascii, here', us, s'', p, rest, leads, finished⟩ :=
    completable (word.chars.foldl Location.advance here)
  refine ⟨word ++ later, spells.ascii.append ascii, here', _, s'', p, fun toks => ?_,
    leads.cons hstep, finished⟩
  rw [spells.ascii.chars_append ascii, Except.foldlM_append_of_ok (spells.scanned here toks), rest]
  simp

theorem completable_of_keyword (k : Keyword)
    (h : ∀ t, t.Spells k → ∃ s', step s t = .ok s' ∧ s'.Completable) : s.Completable := by
  have spells : Spells (k.text ++ " ") .keyword k.text := by
    refine ⟨k.isAscii_text.append (by decide), fun here toks => ?_⟩
    cases k with
    | _ => rfl
  exact completable_of_word spells fun loc => h _ ⟨rfl, k.asciiLower_text⟩

theorem completable_of_name (h : ∀ t, t.IsName → ∃ s', step s t = .ok s' ∧ s'.Completable) :
    s.Completable := by
  have spells : Spells "x " .identifier "x" := ⟨by decide, fun _ _ => rfl⟩
  exact completable_of_word spells fun loc => h _ ⟨rfl, rfl⟩

theorem completable_of_number
    (h : ∀ t n, t.kind = .number → Number.ofText? t.value = some n →
      ∃ s', step s t = .ok s' ∧ s'.Completable) : s.Completable := by
  have spells : Spells "0 " .number "0" := ⟨by decide, fun _ _ => rfl⟩
  exact completable_of_word spells fun loc => h _ _ rfl rfl

theorem completable_of_colon (h : ∀ t, t.IsColon → ∃ s', step s t = .ok s' ∧ s'.Completable) :
    s.Completable := by
  have spells : Spells ": " .operator ":" := ⟨by decide, fun _ _ => rfl⟩
  exact completable_of_word spells fun loc => h _ ⟨rfl, rfl⟩

theorem completable_of_plus (h : ∀ t, t.IsInner → ∃ s', step s t = .ok s' ∧ s'.Completable) :
    s.Completable := by
  have spells : Spells "+ " .operator "+" := ⟨by decide, fun _ _ => rfl⟩
  have notColon : ("+" : Text) ≠ ":" := by decide
  exact completable_of_word spells fun loc => h _ ⟨rfl, notColon⟩

theorem completable_of_kind {word value : Text} {kind : Token.Kind}
    (spells : Spells word kind value)
    (h : ∀ t : Token, t.kind = kind → ∃ s', step s t = .ok s' ∧ s'.Completable) : s.Completable :=
  completable_of_word spells fun _ => h _ rfl

theorem spells_arrow : Spells "<- " .assignment "<-" := ⟨by decide, fun _ _ => rfl⟩

theorem spells_openBracket : Spells "[ " .openBracket "[" := ⟨by decide, fun _ _ => rfl⟩

theorem spells_closeBracket : Spells "] " .closeBracket "]" := ⟨by decide, fun _ _ => rfl⟩

theorem spells_closeParen : Spells ") " .closeParen ")" := ⟨by decide, fun _ _ => rfl⟩

end Words

section Blocks

variable {b : Blocks} {o : Opening} {e : Expr} {s : State}

/-- Behind an expression that ends a statement, a reserved word finds the block around it. -/
theorem step_value_keyword {b' : Blocks}
    (ends : ∀ t, t.kind = .keyword → openingStep b o e t = blockStep b' t) (t : Token)
    (keyword : t.kind = .keyword) : step (.value b o [] e) t = blockStep b' t := by
  rw [← ends t keyword]
  simp [step, valueStep, keyword]

theorem completable_operand {brackets : Brackets} {gap : Gap}
    (h : ∀ e, (State.value b o brackets e).Completable) :
    (State.operand b o brackets gap).Completable := by
  refine completable_of_number fun t n kind value => ⟨_, ?_, h (gap.fill (.number t.loc n))⟩
  have notMinus : t.isOperator "-" = false := Token.isOperator_eq_false (by simp [kind]) _
  simp [step, operandStep, notMinus, kind, value]

/-- Where a reserved word acts as between two statements, the open blocks can be closed one after
another. -/
theorem completable_of_block (b : Blocks)
    (acts : ∀ t, t.kind = .keyword → step s t = blockStep b t) : s.Completable := by
  obtain ⟨program, done, outer⟩ := b
  induction outer generalizing done s with
  | nil =>
    refine completable_of_keyword .finAlgoritmo fun t spells => ⟨.ended ⟨program, done⟩, ?_, ?_⟩
    · rw [acts t spells.1]
      simp [blockStep, spells.isKeyword]
    · exact completable_of_over (.inl rfl)
  | cons head outer ih =>
    obtain ⟨before, enclosing⟩ := head
    -- A word closes the innermost block and adds its statement to the one around it.
    have closed (k : Keyword) (made : Stmt) (h : ∀ t : Token, t.Spells k →
        blockStep ⟨program, done, (before, enclosing) :: outer⟩ t =
          .ok (.block ⟨program, before ++ [made], outer⟩)) : s.Completable := by
      refine completable_of_keyword k fun t spells =>
        ⟨_, (acts t spells.1).trans (h t spells), ih _ fun _ _ => rfl⟩
    cases enclosing with
    | yes loc cond =>
      refine closed .finSi (.branch loc cond done none) fun t spells => ?_
      simp [blockStep, spells.isKeyword, Blocks.add]
    | no loc cond yes =>
      refine closed .finSi (.branch loc cond yes (some done)) fun t spells => ?_
      simp [blockStep, spells.isKeyword, Blocks.add]
    | caseBody sel label =>
      refine closed .finSegun (.select sel.loc sel.subject (sel.cases ++ [(label, done)]) [])
        fun t spells => ?_
      simp [blockStep, selectionStep, spells.isKeyword, Blocks.add]
    | otherwise sel =>
      refine closed .finSegun (.select sel.loc sel.subject sel.cases done) fun t spells => ?_
      simp [blockStep, spells.isKeyword, Blocks.add]
    | whileBody loc cond =>
      refine closed .finMientras (.whileLoop loc cond done) fun t spells => ?_
      simp [blockStep, spells.isKeyword, Blocks.add]
    | forBody loc var first last step =>
      refine closed .finPara (.forLoop loc var first last step done) fun t spells => ?_
      simp [blockStep, spells.isKeyword, Blocks.add]
    | repeatBody loc =>
      -- The condition comes behind the block, and its end is that of the statement.
      let around : Blocks := ⟨program, before, outer⟩
      refine completable_of_keyword .hasta fun t spells =>
        ⟨.header around (.repeatQue loc done), ?_, ?_⟩
      · rw [acts t spells.1]
        simp [blockStep, spells.isKeyword, around]
      · refine completable_of_keyword .que fun t spells =>
          ⟨_, requireKeyword_of_spells spells _, completable_operand fun e => ?_⟩
        refine ih (before ++ [.repeatLoop loc done e]) (step_value_keyword fun t _ => ?_)
        rfl

end Blocks

/-- The name that an assignment will bind when its arrow comes. -/
def Opening.target? : Opening → Option Text
  | elementIndex _ array => some array
  | _ => none

/-- The name that an assignment will bind when its arrow comes. -/
def Header.target? : Header → Option Text
  | assignTarget _ name | assignArrow _ name _ => some name
  | _ => none

namespace State

/-- The name that an assignment will bind when its arrow comes. -/
def target? : State → Option Text
  | header _ h => h.target?
  | operand _ o _ _ | named _ o _ _ _ _ | arguments _ o _ _ _ _ | value _ o _ _ => o.target?
  | start | title | block _ | ended _ | closed _ => none

/-- No constant waits for an arrow. -/
def MayBind (s : State) : Prop := ∀ name, s.target? = some name → constant? name = none

end State

section States

variable {b : Blocks} {o : Opening} {brackets : Brackets} {gap : Gap}

theorem completable_block (b : Blocks) : (State.block b).Completable :=
  completable_of_block b fun _ _ => rfl

theorem completable_assignArrow {loc : Option Location} {array : Text} {index : Expr}
    (free : constant? array = none) :
    (State.header b (.assignArrow loc array index)).Completable := by
  refine completable_of_kind spells_arrow fun t arrow =>
    ⟨expression b (.assignElement loc array index), ?_, completable_operand fun e => ?_⟩
  · simp [step, headerStep, arrow, free]
  · exact completable_of_block _ (step_value_keyword fun t _ => rfl)

theorem completable_opening (mayBind : ∀ name, o.target? = some name → constant? name = none)
    (e : Expr) : (State.value b o [] e).Completable := by
  cases o with
  | print loc done =>
    refine completable_of_block (b.add (.print loc (done ++ [e]))) (step_value_keyword ?_)
    intro t keyword
    simp [openingStep, keyword]
  | repeatLoop | assign | assignElement =>
    exact completable_of_block _ (step_value_keyword fun t _ => rfl)
  | branch loc =>
    refine completable_of_keyword .entonces fun t spells =>
      ⟨.block (b.enter (.yes loc e)), ?_, completable_block _⟩
    simp [step, valueStep, spells.1, openingStep, requireKeyword_of_spells spells]
  | whileLoop loc =>
    refine completable_of_keyword .hacer fun t spells =>
      ⟨.block (b.enter (.whileBody loc e)), ?_, completable_block _⟩
    simp [step, valueStep, spells.1, openingStep, requireKeyword_of_spells spells]
  | caseLabel sel =>
    refine completable_of_colon fun t colon =>
      ⟨.block (b.enter (.caseBody sel e)), ?_, completable_block _⟩
    simp [step, valueStep, colon.2, openingStep, require, colon.isOperator]
  | dimension loc name =>
    refine completable_of_kind spells_closeBracket fun t kind =>
      ⟨.block (b.add (.dimension loc name e)), ?_, completable_block _⟩
    simp [step, valueStep, kind, openingStep, requireKind_of_kind kind]
  | elementIndex loc array =>
    refine completable_of_kind spells_closeBracket fun t kind =>
      ⟨.header b (.assignArrow loc array e), ?_, completable_assignArrow (mayBind array rfl)⟩
    simp [step, valueStep, kind, openingStep, requireKind_of_kind kind]

theorem completable_value (mayBind : ∀ name, o.target? = some name → constant? name = none)
    (e : Expr) : (State.value b o brackets e).Completable := by
  induction brackets generalizing e with
  | nil => exact completable_opening mayBind e
  | cons head outer ih =>
    obtain ⟨gap, bracket⟩ := head
    cases bracket with
    | group =>
      refine completable_of_kind spells_closeParen fun t kind => ⟨_, ?_, ih (gap.fill e)⟩
      simp [step, valueStep, kind, requireKind_of_kind kind]
    | index loc array =>
      refine completable_of_kind spells_closeBracket fun t kind =>
        ⟨_, ?_, ih (gap.fill (.element loc array e))⟩
      simp [step, valueStep, kind, requireKind_of_kind kind]
    | argument loc function done =>
      refine completable_of_kind spells_closeParen fun t kind =>
        ⟨_, ?_, ih (gap.fill (.call loc function (done ++ [e])))⟩
      simp [step, valueStep, kind, requireKind_of_kind kind]

section Headers

variable {s next : State}

theorem completable_of_requireKeyword {k : Keyword}
    (waits : ∀ t, step s t = requireKeyword t k next) (rest : next.Completable) : s.Completable :=
  completable_of_keyword k fun t spells =>
    ⟨next, (waits t).trans (requireKeyword_of_spells spells next), rest⟩

theorem completable_of_requireName {next : Token → Text → State}
    (waits : ∀ t, step s t = requireName t (next t)) (rest : ∀ t name, (next t name).Completable) :
    s.Completable :=
  completable_of_name fun t name =>
    ⟨next t t.value, (waits t).trans (requireName_of_isName name (next t)), rest t t.value⟩

theorem completable_of_requireNumber {minus : Bool} {signed : State} {next : Number → State}
    (waits : ∀ t, step s t = requireNumber t minus signed next)
    (rest : ∀ n, (next n).Completable) : s.Completable :=
  completable_of_number fun t _ kind value =>
    ⟨_, (waits t).trans (requireNumber_of_number kind value minus signed next), rest _⟩

end Headers

section For

variable (b) (loc : Option Location) (var : Text) (first last step : Number) (minus : Bool)

theorem completable_forHacer : (State.header b (.forHacer loc var first last step)).Completable :=
  completable_of_requireKeyword (fun _ => rfl) (completable_block _)

theorem completable_forStep : (State.header b (.forStep loc var first last minus)).Completable :=
  completable_of_requireNumber (fun _ => rfl) fun n => completable_forHacer b loc var first last n

theorem completable_forCon : (State.header b (.forCon loc var first last)).Completable := by
  refine completable_of_keyword .hacer fun t spells =>
    ⟨.block (b.enter (.forBody loc var first last 1)), ?_, completable_block _⟩
  simp [Parser.step, headerStep, spells.isKeyword, requireKeyword_of_spells spells]

theorem completable_forLast : (State.header b (.forLast loc var first minus)).Completable :=
  completable_of_requireNumber (fun _ => rfl) fun n => completable_forCon b loc var first n

theorem completable_forHasta : (State.header b (.forHasta loc var first)).Completable :=
  completable_of_requireKeyword (fun _ => rfl) (completable_forLast b loc var first false)

theorem completable_forFirst : (State.header b (.forFirst loc var minus)).Completable :=
  completable_of_requireNumber (fun _ => rfl) fun n => completable_forHasta b loc var n

theorem completable_forArrow : (State.header b (.forArrow loc var)).Completable :=
  completable_of_kind spells_arrow fun _ kind =>
    ⟨_, requireKind_of_kind kind _, completable_forFirst b loc var false⟩

end For

section Select

variable (b) (sel : Selection)

theorem completable_selectColon : (State.header b (.selectColon sel)).Completable := by
  refine completable_of_colon fun t colon =>
    ⟨.block (b.enter (.otherwise sel)), ?_, completable_block _⟩
  simp [step, headerStep, require, colon.isOperator]

theorem completable_selectModo : (State.header b (.selectModo sel)).Completable :=
  completable_of_requireKeyword (fun _ => rfl) (completable_selectColon b sel)

theorem completable_selectCase : (State.header b (.selectCase sel)).Completable := by
  refine completable_of_keyword .finSegun fun t spells =>
    ⟨.block (b.add (.select sel.loc sel.subject sel.cases [])), ?_, completable_block _⟩
  simp [step, headerStep, selectionStep, spells.isKeyword]

theorem completable_selectHacer (loc : Option Location) (subject : Expr) :
    (State.header b (.selectHacer loc subject)).Completable :=
  completable_of_requireKeyword (fun _ => rfl) (completable_selectCase b ⟨loc, subject, []⟩)

end Select

theorem completable_expression (mayBind : ∀ name, o.target? = some name → constant? name = none) :
    (expression b o).Completable :=
  completable_operand fun e => completable_value mayBind e

theorem completable_dimensionBracket (loc : Option Location) (name : Text) :
    (State.header b (.dimensionBracket loc name)).Completable :=
  completable_of_kind spells_openBracket fun _ kind =>
    ⟨_, requireKind_of_kind kind _, completable_expression fun _ target => by cases target⟩

theorem completable_readNext (loc : Option Location) (done : List Target) :
    (State.header b (.readNext loc done)).Completable := by
  refine completable_of_block (b.add (.read loc done)) fun t keyword => ?_
  simp [step, headerStep, keyword]

theorem completable_header {h : Header}
    (mayBind : ∀ name, h.target? = some name → constant? name = none) :
    (State.header b h).Completable := by
  cases h with
  | readTarget loc done =>
    exact completable_of_requireName (fun _ => rfl) fun _ _ => completable_readNext loc _
  | readNext loc done => exact completable_readNext loc done
  | selectSubject loc =>
    exact completable_of_name fun t name =>
      ⟨_, requireKind_of_kind name.1 _, completable_selectHacer b loc _⟩
  | selectHacer loc subject => exact completable_selectHacer b loc subject
  | selectCase sel => exact completable_selectCase b sel
  | selectOtro sel =>
    exact completable_of_requireKeyword (fun _ => rfl) (completable_selectModo b sel)
  | selectModo sel => exact completable_selectModo b sel
  | selectColon sel => exact completable_selectColon b sel
  | repeatQue loc body =>
    exact completable_of_requireKeyword (fun _ => rfl)
      (completable_expression fun _ target => by cases target)
  | forVar loc =>
    exact completable_of_requireName (fun _ => rfl) fun _ var => completable_forArrow b loc var
  | forArrow loc var => exact completable_forArrow b loc var
  | forFirst loc var minus => exact completable_forFirst b loc var minus
  | forHasta loc var first => exact completable_forHasta b loc var first
  | forLast loc var first minus => exact completable_forLast b loc var first minus
  | forCon loc var first last => exact completable_forCon b loc var first last
  | forPaso loc var first last =>
    exact completable_of_requireKeyword (fun _ => rfl)
      (completable_forStep b loc var first last false)
  | forStep loc var first last minus => exact completable_forStep b loc var first last minus
  | forHacer loc var first last step => exact completable_forHacer b loc var first last step
  | dimensionName loc =>
    exact completable_of_requireName (fun _ => rfl) fun _ name =>
      completable_dimensionBracket loc name
  | dimensionBracket loc name => exact completable_dimensionBracket loc name
  | assignTarget loc name =>
    refine completable_of_kind spells_arrow fun t arrow =>
      ⟨expression b (.assign loc name), ?_, completable_expression fun _ target => by cases target⟩
    simp [step, headerStep, arrow, mayBind name rfl]
  | assignArrow loc array index => exact completable_assignArrow (mayBind array rfl)

/-- From every state but those in which a constant waits for an arrow, a program can be
completed. -/
theorem State.MayBind.completable {s : State} (mayBind : s.MayBind) : s.Completable := by
  cases s with
  | start =>
    refine completable_of_requireKeyword (fun _ => rfl) (completable_of_name fun t name => ?_)
    refine ⟨.block ⟨t.value, [], []⟩, ?_, completable_block _⟩
    simp [step, require, name.1]
  | title =>
    refine completable_of_name fun t name => ⟨.block ⟨t.value, [], []⟩, ?_, completable_block _⟩
    simp [step, require, name.1]
  | block b => exact completable_block b
  | header b h => exact completable_header mayBind
  | operand b o brackets gap => exact completable_operand fun e => completable_value mayBind e
  | named b o brackets gap loc name =>
    refine completable_of_plus fun t inner =>
      ⟨.operand b o brackets ⟨some ⟨t.loc, .ofText t.value, gap.fill (.name loc name)⟩, none⟩, ?_,
        completable_operand fun e => completable_value mayBind e⟩
    simp [step, valueStep, inner.1, inner.2]
  | arguments b o brackets gap loc function =>
    refine completable_of_kind spells_closeParen fun t kind =>
      ⟨.value b o brackets (gap.fill (.call loc function [])), ?_, completable_value mayBind _⟩
    simp [step, kind]
  | value b o brackets e => exact completable_value mayBind e
  | ended p => exact completable_of_over (.inl rfl)
  | closed p => exact completable_of_over (.inr rfl)

end States

section Waiting

variable {s s' : State} {t : Token} {name : Text} {n : Number}

theorem target?_of_operandStep {b : Blocks} {o : Opening} {brackets : Brackets} {gap : Gap}
    (h : operandStep b o brackets gap t = .ok s') : s'.target? = o.target? := by
  simp only [operandStep] at h
  grind [State.target?, expected]

theorem target?_of_valueStep {b : Blocks} {o : Opening} {brackets : Brackets} {e : Expr}
    (h : valueStep b o brackets e t = .ok s') (waits : o.target? = some name) :
    s'.target? = some name := by
  cases o with
  | elementIndex loc array =>
    rw [valueStep.eq_def] at h
    grind [State.target?, Opening.target?, Header.target?, requireKind, require, expected,
      openingStep]
  | _ => cases waits

/-- A constant that waits for an arrow still does after any token that is taken. -/
theorem target?_of_step (h : step s t = .ok s') (waits : s.target? = some name)
    (isConstant : constant? name = some n) : s'.target? = some name := by
  cases s with
  | start | title | block | ended | closed => cases waits
  | header b hd =>
    cases hd with
    | assignTarget loc x =>
      cases waits
      simp only [step, headerStep, isConstant] at h
      grind [State.target?, Opening.target?, expression]
    | assignArrow loc x index =>
      cases waits
      simp only [step, headerStep, isConstant] at h
      grind
    | _ => cases waits
  | operand b o brackets gap => exact (target?_of_operandStep h).trans waits
  | named b o brackets gap loc x =>
    simp only [step] at h
    split at h
    · cases h
      exact waits
    · split at h
      · cases h
        exact waits
      · exact target?_of_valueStep h waits
  | arguments b o brackets gap loc function =>
    simp only [step] at h
    split at h
    · cases h
      exact waits
    · exact (target?_of_operandStep h).trans waits
  | value b o brackets e => exact target?_of_valueStep h waits

theorem Leads.target? {ts : List Token} (h : Leads s ts s') (waits : s.target? = some name)
    (isConstant : constant? name = some n) : s'.target? = some name := by
  induction ts generalizing s with
  | nil =>
    cases h
    exact waits
  | cons t ts ih =>
    obtain ⟨m, hstep, rest⟩ := h.cons_inv
    exact ih rest (target?_of_step hstep waits isConstant)

/-- Where tokens lead to the end of a program, no constant waited for an arrow. -/
theorem Leads.mayBind {ts : List Token} {p : Program} (h : Leads s ts s')
    (finished : s' = .ended p ∨ s' = .closed p) : s.MayBind := by
  intro name waits
  cases isConstant : constant? name with
  | none => rfl
  | some n =>
    have still : s'.target? = some name := h.target? waits isConstant
    rcases finished with rfl | rfl
    · cases still
    · cases still

section Strings

variable (string : t.kind = .string)
include string

theorem blockStep_string_ne_ok (b : Blocks) : blockStep b t ≠ .ok s' := by
  intro h
  rcases mayBegin_of_blockStep h with kind | kind
  · simp [string] at kind
  · simp [string] at kind

theorem valueStep_string_ne_ok (b : Blocks) (o : Opening) (brackets : Brackets) (e : Expr) :
    valueStep b o brackets e t ≠ .ok s' := by
  have noKeyword (k : Keyword) : t.isKeyword k = false := by simp [Token.isKeyword, string]
  have noOperator (symbol : String) : t.isOperator symbol = false :=
    Token.isOperator_eq_false (by simp [string]) symbol
  have noBlock (b : Blocks) : blockStep b t ≠ .ok s' := blockStep_string_ne_ok string b
  cases brackets with
  | nil =>
    cases o with
    | _ =>
      simp [valueStep, string, openingStep, requireKeyword, requireKind, require, noKeyword,
        noOperator, noBlock, expected]
  | cons first outer =>
    obtain ⟨_, bracket⟩ := first
    cases bracket with
    | _ => simp [valueStep, string, requireKind, require, expected]

theorem headerStep_string_ne_ok (b : Blocks) (h : Header) : headerStep b h t ≠ .ok s' := by
  have noKeyword (k : Keyword) : t.isKeyword k = false := by simp [Token.isKeyword, string]
  have noOperator (symbol : String) : t.isOperator symbol = false :=
    Token.isOperator_eq_false (by simp [string]) symbol
  cases h with
  | readNext loc done => simpa [headerStep, string] using blockStep_string_ne_ok string _
  | _ =>
    simp [headerStep, string, selectionStep, requireKeyword, requireKind, requireName,
      requireNumber, require, noKeyword, noOperator, expected]

theorem operandStep_string (b : Blocks) (o : Opening) (brackets : Brackets) (gap : Gap) :
    operandStep b o brackets gap t =
      .ok (.value b o brackets (gap.fill (.text t.loc t.value))) := by
  have noOperator : t.isOperator "-" = false := Token.isOperator_eq_false (by simp [string]) "-"
  simp [operandStep, string, noOperator]

end Strings

/-- A string is taken as an operand, and what it says makes no difference. -/
theorem step_string (h : step s t = .ok s') (string : t.kind = .string) {u : Token}
    (string' : u.kind = .string) : ∃ s'', step s u = .ok s'' ∧ s''.target? = s'.target? := by
  cases s with
  | start => simp [step, requireKeyword, require, Token.isKeyword, string, expected] at h
  | title => simp [step, require, string, expected] at h
  | block b => exact absurd h (blockStep_string_ne_ok string b)
  | header b hd => exact absurd h (headerStep_string_ne_ok string b hd)
  | operand b o brackets gap =>
    cases (operandStep_string string b o brackets gap).symm.trans h
    exact ⟨_, operandStep_string string' b o brackets gap, rfl⟩
  | named b o brackets gap loc name =>
    simp only [step, string, reduceCtorEq, if_false] at h
    exact absurd h (valueStep_string_ne_ok string b o brackets _)
  | arguments b o brackets gap loc function =>
    simp only [step, string, reduceCtorEq, if_false, operandStep_string string] at h
    cases h
    refine ⟨.value b o ((gap, .argument loc function []) :: brackets)
      (Gap.start.fill (.text u.loc u.value)), ?_, rfl⟩
    simp only [step, string', reduceCtorEq, if_false, operandStep_string string']
  | value b o brackets e => exact absurd h (valueStep_string_ne_ok string b o brackets e)
  | ended p => simp [step, require, string, expected] at h
  | closed p =>
    cases h
    exact ⟨_, rfl, rfl⟩

end Waiting

end Parser

/-- What closes the string that an error says is open. -/
def CompileError.closing : CompileError → Text
  | .lex _ => "\""
  | .parse _ => Text.empty

section Lines

variable {src : Text} {s : Scanner} {ts : List Token}

theorem chars_quote : ("\"" : Text).chars = ['"'] := rfl

/-- When all strings are closed, a source that ends in a line leaves no lexeme under way. -/
theorem scanned_of_closing (endsLine : src.EndsLine) (e : CompileError)
    (h : scan (src ++ e.closing) = .ok ts) :
    ∃ here, (src.chars ++ e.closing.chars).foldlM Scanner.step .initial =
      .ok ⟨.between, here, ts.reverse⟩ := by
  obtain ⟨_, _, happend⟩ := endsLine.chars_append
  rw [scan, scanChars, happend] at h
  obtain ⟨s', scanned, finished⟩ := Except.bind_eq_ok.1 h
  suffices between : s'.mode = .between by
    rw [Scanner.tokens_of_between between finished] at scanned
    exact ⟨_, scanned⟩
  rw [List.foldlM_append] at scanned
  obtain ⟨s, first, last⟩ := Except.bind_eq_ok.1 scanned
  have mode := Scanner.mode_of_endsLine endsLine first
  cases e with
  | parse =>
    cases last
    obtain between | ⟨place, body, string⟩ := mode
    · exact between
    · simp [Scanner.finish, string, Scanner.Mode.close, bind, Except.bind] at finished
  | lex =>
    rw [CompileError.closing, chars_quote] at last
    obtain ⟨_, quote, ends⟩ := Except.foldlM_cons_eq_ok.1 last
    cases ends
    obtain between | ⟨place, body, string⟩ := mode
    · -- The quotation mark would have opened a string.
      have opens : Scanner.start s.here '"' = .ok (.string s.here [], none) := rfl
      simp only [Scanner.step, between, Scanner.Mode.extend?, Scanner.Mode.close, opens, bind,
        Except.bind, pure, Except.pure, Except.ok.injEq] at quote
      simp [← quote, Scanner.finish, Scanner.Mode.close, bind, Except.bind] at finished
    · rw [Scanner.step_quote string] at quote
      cases quote
      rfl

end Lines

namespace Program

open Pseudocode.Parser (Leads)

variable {src : Text}

/-- Where all strings are closed and the tokens lead to a state in which no constant waits, a text
completes the program. -/
theorem exists_ofSource_append (endsLine : src.EndsLine) {closing : Text} (ascii : closing.IsAscii)
    {here : Location} {ts : List Token}
    (scanned : (src.chars ++ closing.chars).foldlM Scanner.step .initial =
      .ok ⟨.between, here, ts.reverse⟩)
    {s : Parser.State} (leads : Leads .start ts s) (mayBind : s.MayBind) :
    ∃ later p, ofSource (src ++ later) = .ok p := by
  obtain ⟨_, _, happend⟩ := endsLine.chars_append
  obtain ⟨later, asciiLater, here', us, s', p, rest, leads', finished⟩ := mayBind.completable here
  have tokens : scan (src ++ (closing ++ later)) = .ok (ts ++ us) := by
    rw [scan, scanChars, happend, ascii.chars_append asciiLater, ← List.append_assoc,
      Except.foldlM_append_of_ok scanned, rest]
    simp [Scanner.finish, Scanner.Mode.close, bind, Except.bind, pure, Except.pure]
  have parsed : ofTokens (ts ++ us) = .ok p := by
    have whole : Leads .start (ts ++ us) s' := leads.append leads'
    rw [ofTokens, whole]
    rcases finished with rfl | rfl
    · rfl
    · rfl
  refine ⟨closing ++ later, p, ?_⟩
  rw [ofSource, tokens]
  exact Except.mapError_eq_ok.2 parsed

theorem leads_of_ofTokens {ts : List Token} {p : Program} (h : ofTokens ts = .ok p) :
    ∃ s, Leads .start ts s ∧ (s = .ended p ∨ s = .closed p) := by
  obtain ⟨s, leads, finished⟩ := Except.bind_eq_ok.1 h
  exact ⟨s, leads, Parser.finish_eq_ok rfl finished⟩

/-- Where a text completes the program behind an open string, so does another string. -/
theorem leads_of_open_string (endsLine : src.EndsLine) {e : LexError} (failed : scan src = .error e)
    {later : Text} {p : Program} (completed : ofSource (src ++ later) = .ok p) :
    ∃ ts s, scan (src ++ "\"") = .ok ts ∧ Leads .start ts s ∧ s.MayBind := by
  obtain ⟨_, _, happend⟩ := endsLine.chars_append
  obtain ⟨all, hall, parsed⟩ := exists_tokens_of_ofSource completed
  obtain ⟨s', leads, complete⟩ := leads_of_ofTokens parsed
  rw [scan, scanChars, happend] at hall
  obtain ⟨m', scanned, finished⟩ := Except.bind_eq_ok.1 hall
  rw [List.foldlM_append] at scanned
  obtain ⟨m, first, last⟩ := Except.bind_eq_ok.1 scanned
  rw [scan, scanChars, first] at failed
  obtain ⟨place, body, string⟩ := Scanner.string_of_finish_error endsLine first failed
  obtain ⟨more, rest, here, hlater, after⟩ := Scanner.split_string string last finished
  have string' : (Scanner.token place .string (body.reverse ++ more)).kind = .string := rfl
  generalize Scanner.token place .string (body.reverse ++ more) = closed at after string'
  -- The tokens are those before the string, the string, and those after it.
  have upTo : (⟨.between, here, closed :: m.tokens⟩ : Scanner).finish =
      .ok (m.tokens.reverse ++ [closed]) := by
    simp [Scanner.finish, Scanner.Mode.close, bind, Except.bind, pure, Except.pure]
  obtain ⟨us, rfl⟩ := Scanner.tokens_of_finish rfl upTo after finished
  obtain ⟨s₂, leads, leadsAfter⟩ := leads.append_inv
  obtain ⟨s₁, leadsBefore, leads⟩ := leads.append_inv
  obtain ⟨_, taken, ends⟩ := leads.cons_inv
  cases ends
  obtain ⟨s₃, taken', same⟩ :=
    Parser.step_string taken string' (u := Scanner.token place .string body.reverse) rfl
  refine ⟨m.tokens.reverse ++ [Scanner.token place .string body.reverse], s₃, ?_,
    leadsBefore.append (.single taken'), fun name waits => ?_⟩
  · rw [scan, scanChars, happend, chars_quote, Except.foldlM_append_of_ok first,
      List.foldlM_cons, Scanner.step_quote string]
    simp [Scanner.finish, Scanner.Mode.close, bind, Except.bind, pure, Except.pure]
  · exact leadsAfter.mayBind complete name (same ▸ waits)

/-- A source that is no program can be completed exactly where its error says that it merely ends
too early and, with an open string counted as closed, its tokens lead the parser to a state in which
no constant waits for an arrow. -/
theorem exists_completion_iff (endsLine : src.EndsLine) {e : CompileError}
    (failed : ofSource src = .error e) :
    (∃ later p, ofSource (src ++ later) = .ok p) ↔
      e.isIncomplete = true ∧
        ∃ ts s, scan (src ++ e.closing) = .ok ts ∧ Leads .start ts s ∧ s.MayBind := by
  constructor
  · rintro ⟨later, p, completed⟩
    refine ⟨?_, ?_⟩
    · cases definite : e.isIncomplete with
      | true => rfl
      | false =>
        obtain ⟨e', failed'⟩ := ofSource_append_of_error endsLine failed definite later
        rw [completed] at failed'
        cases failed'
    · cases hscan : scan src with
      | error lexical =>
        rw [ofSource, hscan] at failed
        cases failed
        exact leads_of_open_string endsLine hscan completed
      | ok ts =>
        rw [ofSource, hscan] at failed
        obtain ⟨parsing, _, rfl⟩ := Except.mapError_eq_error.1 failed
        obtain ⟨all, hall, parsed⟩ := exists_tokens_of_ofSource completed
        obtain ⟨us, rfl⟩ := scan_append_of_ok endsLine hscan hall
        obtain ⟨s', leads, finished⟩ := leads_of_ofTokens parsed
        obtain ⟨s, leadsTo, leadsOn⟩ := leads.append_inv
        refine ⟨ts, s, ?_, leadsTo, leadsOn.mayBind finished⟩
        rw [CompileError.closing, Text.append_empty, hscan]
  · rintro ⟨_, ts, s, hts, leads, mayBind⟩
    obtain ⟨here, scanned⟩ := scanned_of_closing endsLine e hts
    have ascii : e.closing.IsAscii := by
      cases e with
      | lex => exact (by decide : ("\"" : Text).IsAscii)
      | parse => exact (by decide : Text.empty.IsAscii)
    exact exists_ofSource_append endsLine ascii scanned leads mayBind

/-- `PI` waits for an arrow that can never come, and the string is read although the name before it
was refused. Both errors ask for more text. -/
theorem exists_completion_pi :
    (∃ e, ofSource "algoritmo a\nPI\n" = .error e ∧ e.isIncomplete = true ∧
      ¬ ∃ later p, ofSource ("algoritmo a\nPI\n" ++ later) = .ok p) ∧
    (∃ e, ofSource "x \"\n" = .error e ∧ e.isIncomplete = true ∧
      ¬ ∃ later p, ofSource ("x \"\n" ++ later) = .ok p) ∧
    ∃ later p, ofSource ("algoritmo a\nx\n" ++ later) = .ok p := by
  refine ⟨⟨_, rfl, rfl, ?_⟩, ⟨_, rfl, rfl, ?_⟩, ?_⟩
  · rw [exists_completion_iff (by decide) rfl]
    rintro ⟨_, ts, s, hts, leads, mayBind⟩
    obtain ⟨rfl⟩ := hts
    obtain ⟨rfl⟩ := leads
    cases mayBind "PI" rfl
  · rw [exists_completion_iff (by decide) rfl]
    rintro ⟨_, ts, s, hts, leads, _⟩
    obtain ⟨rfl⟩ := hts
    cases leads
  · have leads : Leads .start [⟨.keyword, "algoritmo", some ⟨1, 1⟩⟩,
        ⟨.identifier, "a", some ⟨1, 11⟩⟩, ⟨.identifier, "x", some ⟨2, 1⟩⟩]
        (.header ⟨"a", [], []⟩ (.assignTarget (some ⟨2, 1⟩) "x")) := rfl
    refine (exists_completion_iff (by decide) rfl).2 ⟨rfl, _, _, rfl, leads, fun name waits => ?_⟩
    cases waits
    rfl

end Program

end Pseudocode

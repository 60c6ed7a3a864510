import Pseudocode.Program.Parser
import Pseudocode.Proofs.Outcome

/-!
# Taking tokens

`Leads` is a run of the parser over some tokens, which may be cut anywhere.

An end of input completes a program that has reached its last reserved word. Everywhere else it is
refused, and the error blames the end itself, never a token before it. So an error that blames
another token was made by that token.
-/

namespace Pseudocode

namespace Parser

/-- The parser comes from one state to another by taking tokens. -/
def Leads (s : State) (ts : List Token) (s' : State) : Prop := ts.foldlM step s = .ok s'

namespace Leads

variable {s m s' : State} {t : Token} {ts us : List Token}

theorem nil (s : State) : Leads s [] s := rfl

theorem cons (h : step s t = .ok m) (rest : Leads m ts s') : Leads s (t :: ts) s' := by
  rw [Leads, List.foldlM_cons, h]
  exact rest

theorem single (h : step s t = .ok m) : Leads s [t] m := cons h (nil m)

theorem append (first : Leads s ts m) (rest : Leads m us s') : Leads s (ts ++ us) s' := by
  rw [Leads, Except.foldlM_append_of_ok first]
  exact rest

theorem cons_inv (h : Leads s (t :: ts) s') : ∃ m, step s t = .ok m ∧ Leads m ts s' :=
  Except.foldlM_cons_eq_ok.1 h

theorem append_inv (h : Leads s (ts ++ us) s') : ∃ m, Leads s ts m ∧ Leads m us s' := by
  rw [Leads, List.foldlM_append] at h
  exact Except.bind_eq_ok.1 h

end Leads

/-- The token is refused, and it is the one to blame. -/
def Refuses (r : Except ParseError State) (t : Token) : Prop := ∃ cause, r = .error ⟨t, cause⟩

section End

variable {t : Token} (isEnd : t.kind = .endOfInput)
include isEnd

theorem isKeyword_end (k : Keyword) : t.isKeyword k = false := by
  simp [Token.isKeyword, isEnd]

theorem isOperator_end (symbol : String) : t.isOperator symbol = false := by
  simp [Token.isOperator, isEnd]

omit isEnd in
theorem refuses_expected (what : Expectation) : Refuses (expected t what) t := ⟨_, rfl⟩

theorem refuses_requireKeyword (k : Keyword) (next : State) :
    Refuses (requireKeyword t k next) t := by
  rw [requireKeyword, require, isKeyword_end isEnd]
  exact refuses_expected _

theorem refuses_requireKind {kind : Token.Kind} (h : kind ≠ .endOfInput) (next : State) :
    Refuses (requireKind t kind next) t := by
  have hk : (t.kind == kind) = false := by simp [isEnd, Ne.symm h]
  rw [requireKind, require, hk]
  exact refuses_expected _

theorem refuses_requireName (next : Text → State) : Refuses (requireName t next) t := by
  rw [requireName, if_pos (by simp [isEnd])]
  exact refuses_expected _

theorem refuses_requireNumber (minus : Bool) (signed : State) (next : Number → State) :
    Refuses (requireNumber t minus signed next) t := by
  rw [requireNumber, isOperator_end isEnd, Bool.and_false, if_neg (by simp),
    if_pos (by simp [isEnd])]
  exact refuses_expected _

theorem refuses_statementOr (b : Blocks) (closing : Keyword) :
    Refuses (statementOr b closing t) t := by
  rw [statementOr, if_pos isEnd]
  exact refuses_expected _

theorem refuses_selectionStep (b : Blocks) (s : Selection) {other : Except ParseError State}
    (h : Refuses other t) : Refuses (selectionStep b s t other) t := by
  simpa only [selectionStep, isKeyword_end isEnd, Bool.false_eq_true, if_false] using h

theorem refuses_blockStep (b : Blocks) : Refuses (blockStep b t) t := by
  obtain ⟨program, done, outer⟩ := b
  cases outer with
  | nil => simpa [blockStep, isKeyword_end isEnd] using refuses_statementOr isEnd _ _
  | cons head outer =>
    obtain ⟨before, enclosing⟩ := head
    cases enclosing with
    | caseBody s label =>
      exact refuses_selectionStep isEnd _ _ (refuses_statementOr isEnd _ _)
    | _ => simpa [blockStep, isKeyword_end isEnd] using refuses_statementOr isEnd _ _

theorem refuses_headerStep (b : Blocks) (h : Header) : Refuses (headerStep b h t) t := by
  cases h with
  | readTarget | forVar | dimensionName =>
    simp only [headerStep]
    exact refuses_requireName isEnd _
  | readNext => simpa [headerStep, isEnd] using refuses_blockStep isEnd _
  | selectSubject | forArrow | dimensionBracket => exact refuses_requireKind isEnd (by decide) _
  | selectCase => exact refuses_selectionStep isEnd _ _ (refuses_expected _)
  | selectColon =>
    simpa [headerStep, require, isOperator_end isEnd] using refuses_expected _
  | forFirst | forLast | forStep =>
    simp only [headerStep]
    exact refuses_requireNumber isEnd _ _ _
  | forCon =>
    simpa [headerStep, isKeyword_end isEnd] using refuses_requireKeyword isEnd _ _
  | assignTarget | assignArrow => exact ⟨_, by simp only [headerStep, isEnd]; rfl⟩
  | _ => exact refuses_requireKeyword isEnd _ _

theorem refuses_operandStep (b : Blocks) (o : Opening) (brackets : Brackets) (gap : Gap) :
    Refuses (operandStep b o brackets gap t) t := by
  simpa [operandStep, isOperator_end isEnd, isEnd] using refuses_expected _

theorem refuses_openingStep (b : Blocks) (o : Opening) (e : Expr) :
    Refuses (openingStep b o e t) t := by
  cases o with
  | print => simpa [openingStep, isEnd] using refuses_blockStep isEnd _
  | branch | whileLoop => exact refuses_requireKeyword isEnd _ _
  | caseLabel =>
    simpa [openingStep, require, isOperator_end isEnd] using refuses_expected _
  | dimension | elementIndex => exact refuses_requireKind isEnd (by decide) _
  | repeatLoop | assign | assignElement => exact refuses_blockStep isEnd _

theorem refuses_valueStep (b : Blocks) (o : Opening) (brackets : Brackets) (e : Expr) :
    Refuses (valueStep b o brackets e t) t := by
  have hop : ¬ (t.kind = .operator ∧ t.value ≠ ":") := by simp [isEnd]
  rw [valueStep.eq_def, if_neg hop]
  match brackets with
  | [] => exact refuses_openingStep isEnd _ _ _
  | (_, .group) :: _ => exact refuses_requireKind isEnd (by decide) _
  | (_, .index _ _) :: _ => exact refuses_requireKind isEnd (by decide) _
  | (_, .argument _ _ _) :: _ =>
    simpa [isEnd] using refuses_requireKind isEnd (by decide) _

/-- An end of input ends a program after its last word, and is refused everywhere else. -/
theorem step_end (s : State) :
    Refuses (step s t) t ∨ ∃ p, (s = .ended p ∨ s = .closed p) ∧ step s t = .ok (.closed p) := by
  cases s with
  | start => exact .inl (refuses_requireKeyword isEnd _ _)
  | title => exact .inl (by simpa [step, require, isEnd] using refuses_expected _)
  | block b => exact .inl (refuses_blockStep isEnd b)
  | header b h => exact .inl (refuses_headerStep isEnd b h)
  | operand => exact .inl (refuses_operandStep isEnd _ _ _ _)
  | named => exact .inl (by simpa [step, isEnd] using refuses_valueStep isEnd _ _ _ _)
  | arguments => exact .inl (by simpa [step, isEnd] using refuses_operandStep isEnd _ _ _ _)
  | value => exact .inl (refuses_valueStep isEnd _ _ _ _)
  | ended p => exact .inr ⟨p, .inl rfl, by simp [step, require, isEnd]⟩
  | closed p => exact .inr ⟨p, .inr rfl, rfl⟩

/-- Only a program that has ended can be finished. -/
theorem finish_eq_ok {s : State} {p : Program} (h : finish s t = .ok p) :
    s = .ended p ∨ s = .closed p := by
  obtain ⟨cause, hstep⟩ | ⟨q, hs, hstep⟩ := step_end isEnd s
  · simp [finish, hstep, bind, Except.bind] at h
  · simp only [finish, hstep, bind, Except.bind, Except.ok.injEq] at h
    exact h ▸ hs

/-- A program that cannot be finished is to blame on the end. -/
theorem finish_eq_error {s : State} {e : ParseError} (h : finish s t = .error e) : e.token = t := by
  obtain ⟨cause, hstep⟩ | ⟨q, hs, hstep⟩ := step_end isEnd s
  · simp only [finish, hstep, bind, Except.bind, Except.error.injEq] at h
    exact h ▸ rfl
  · simp [finish, hstep, bind, Except.bind] at h

end End

end Parser

end Pseudocode

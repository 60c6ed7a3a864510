import Pseudocode.Proofs.Program.Parts

/-!
# Trees that a source can spell

A tree may be built by a host, and then it may hold what no source spells: an operator that the
language does not know, or a statement that binds a constant. The tree of a source has neither. Its
operators are those of the scanner's tokens, all of which are known but the colon, which no
expression takes; and wherever a name is bound, the grammar asks for one that is not a constant.
-/

namespace Pseudocode

namespace Scanner

/-- An operator token spells an operator of the language, or it is the colon. -/
def IsOrdinary (t : Token) : Prop :=
  t.kind = .operator → BinaryOp.ofText t.value ∈ BinaryOp.known ∨ t.value = ":"

variable {s s' : Scanner} {c : Char} {cs : List Char}

theorem isOrdinary_token (place : Location)
    (h : BinaryOp.ofText (Text.ofChars cs) ∈ BinaryOp.known ∨ Text.ofChars cs = ":") :
    IsOrdinary (token place .operator cs) := fun _ => h

theorem isOrdinary_of_extend? {m m' : Mode} {t : Token} (h : m.extend? c = some (m', some t)) :
    IsOrdinary t := by
  cases m with
  | string start body =>
    simp only [Mode.extend?] at h
    split at h
    · cases h
      intro operator
      cases operator
    · cases h
  | less start =>
    simp only [Mode.extend?] at h
    split at h
    · cases h
      intro operator
      cases operator
    · split at h
      · next closes =>
        cases h
        rcases Bool.or_eq_true _ _ ▸ closes with closes | closes
        · obtain rfl := eq_of_beq closes
          exact isOrdinary_token _ (by decide)
        · obtain rfl := eq_of_beq closes
          exact isOrdinary_token _ (by decide)
      · cases h
  | greater start =>
    simp only [Mode.extend?] at h
    split at h
    · next closes =>
      cases h
      obtain rfl := eq_of_beq closes
      exact isOrdinary_token _ (by decide)
    · cases h
  | between => cases h
  | number | word | slash =>
    simp only [Mode.extend?] at h
    split at h
    · cases h
    · cases h
  | comment => cases h

theorem isOrdinary_of_close {m : Mode} {t : Token} (h : m.close = .ok (some t)) :
    IsOrdinary t := by
  cases m with
  | word =>
    cases h
    intro operator
    simp only [wordToken, wordKind] at operator
    split at operator
    · cases operator
    · split at operator
      · cases operator
      · cases operator
  | between | comment | string => cases h
  | number =>
    cases h
    intro operator
    cases operator
  | slash | less | greater =>
    cases h
    exact isOrdinary_token _ (by decide)

theorem isOrdinary_of_start {here : Location} {m : Mode} {t : Token}
    (h : start here c = .ok (m, some t)) : IsOrdinary t := by
  have mark {kind : Token.Kind} (h : punctuation? c = some kind) : kind ≠ .operator := by
    rw [punctuation?.eq_def] at h
    split at h
    all_goals
      cases h
    all_goals
      intro operator
      cases operator
  have plain (h : plainOperators.contains c = true) (place : Location) :
      IsOrdinary (token place .operator [c]) := by
    simp only [plainOperators, List.contains_iff_mem, List.mem_cons, List.not_mem_nil,
      or_false] at h
    rcases h with rfl | rfl | rfl | rfl | rfl | rfl | rfl
    all_goals
      exact isOrdinary_token place (by decide)
  grind [start, token, IsOrdinary]

end Scanner

theorem isOrdinary_of_scan {src : Text} {ts : List Token} (h : scan src = .ok ts) :
    ∀ t ∈ ts, Scanner.IsOrdinary t := by
  have makes : Scanner.Makes Scanner.IsOrdinary :=
    ⟨Scanner.isOrdinary_of_extend?, Scanner.isOrdinary_of_close, Scanner.isOrdinary_of_start⟩
  exact makes.scan h

/-- An operation has an operator of the language. -/
def Expr.IsOperable : Expr → Prop
  | .binary _ op _ _ => op ∈ BinaryOp.known
  | _ => True

theorem yields_isOperable {ts : List Token} (h : ∀ t ∈ ts, Scanner.IsOrdinary t) :
    Yields Expr.IsOperable ts where
  text _ _ := trivial
  number _ _ _ _ _ := trivial
  boolean _ _ := trivial
  name _ _ _ := trivial
  element _ _ _ _ := trivial
  call _ _ _ _ := trivial
  negated _ _ := trivial
  operation _ _ mem inner := (h _ mem inner.1).resolve_right inner.2

namespace Stmt

/-- The names that a statement binds itself, not in a statement inside it. -/
def assigned : Stmt → List Text
  | assign _ name _ | dimension _ name _ | assignElement _ name _ _ | forLoop _ name _ _ _ _ =>
    [name]
  | read _ targets => targets.map Target.name
  | print _ _ | branch _ _ _ _ | select _ _ _ _ | whileLoop _ _ _ | repeatLoop _ _ _ => []

end Stmt

/-- All names that a phrase binds. -/
def Phrase.assigned : Phrase → List Text
  | targets xs => xs.map Target.name
  | otherBranch no => (partsOfElse no).flatMap Stmt.assigned
  | cases cs => (partsOfCases cs).flatMap Stmt.assigned
  | otherwise ss | block ss => (partsOfBlock ss).flatMap Stmt.assigned
  | stmt s => s.parts.flatMap Stmt.assigned
  | program p => p.statements.flatMap Stmt.assigned
  | operand _ | signed _ | expr _ | exprs _ | subject _ | bound _ | stride _ => []

theorem forall_assigned_cons {P : Text → Prop} {s : Stmt} {inner : List Stmt}
    (own : ∀ x ∈ s.assigned, P x) (further : ∀ x ∈ inner.flatMap Stmt.assigned, P x) :
    ∀ x ∈ (s :: inner).flatMap Stmt.assigned, P x := by
  rw [List.flatMap_cons]
  exact List.forall_mem_append.2 ⟨own, further⟩

/-- No phrase binds a constant. -/
theorem Derives.constant?_assigned {reads : Token → Keyword → Prop} {ph : Phrase} {ts : List Token}
    (h : Derives reads ph ts) : ∀ x ∈ ph.assigned, constant? x = none := by
  induction h with
  | text | number | boolean | constant | name | element | callNone | call | group | plain | negated
  | single | operation | firstExpr | nextExpr | subjectName | subjectConstant | boundAbove
  | boundBelow | strideOne | strideGiven =>
    exact List.forall_mem_nil _
  | noOther | noCases | noOtherwise | noStmts =>
    simp [Phrase.assigned, partsOfElse, partsOfCases, partsOfBlock]
  | firstTarget name => simpa [Phrase.assigned] using name.2
  | nextTarget _ _ name before =>
    simp only [Phrase.assigned, List.map_append, List.map_cons, List.map_nil,
      List.forall_mem_append, List.forall_mem_singleton] at before ⊢
    exact ⟨before, name.2⟩
  | other _ _ ih | otherwise _ _ _ _ _ ih => exact ih
  | nextCase _ _ _ _ _ before _ body =>
    simp only [Phrase.assigned, partsOfCases_eq, List.flatMap_append, List.flatMap_singleton,
      List.forall_mem_append] at before ⊢
    exact ⟨before, body⟩
  | nextStmt _ _ before stmt =>
    simp only [Phrase.assigned, partsOfBlock_eq, List.flatMap_append, List.flatMap_singleton,
      List.forall_mem_append] at before ⊢
    exact ⟨before, stmt⟩
  | assign name | assignElement name | dimension _ name =>
    exact forall_assigned_cons (List.forall_mem_singleton.2 name.2) (List.forall_mem_nil _)
  | print => exact forall_assigned_cons (List.forall_mem_nil _) (List.forall_mem_nil _)
  | read _ _ targets => exact forall_assigned_cons targets (List.forall_mem_nil _)
  | branch _ _ _ _ _ _ _ body other =>
    refine forall_assigned_cons (List.forall_mem_nil _) ?_
    rw [List.flatMap_append]
    exact List.forall_mem_append.2 ⟨body, other⟩
  | select _ _ _ _ _ _ _ cases rest =>
    refine forall_assigned_cons (List.forall_mem_nil _) ?_
    rw [List.flatMap_append]
    exact List.forall_mem_append.2 ⟨cases, rest⟩
  | whileLoop _ _ _ _ _ _ body | repeatLoop _ _ _ _ _ body =>
    exact forall_assigned_cons (List.forall_mem_nil _) body
  | forLoop _ name _ _ _ _ _ _ _ _ _ _ _ body =>
    exact forall_assigned_cons (List.forall_mem_singleton.2 name.2) body
  | program _ _ _ _ body => exact body

namespace Program

variable {src : Text} {p : Program}

/-- The operators of a program that was compiled from a source are those of the language. -/
theorem isOperable_of_ofSource (h : ofSource src = .ok p) : ∀ e ∈ p.expressions, e.IsOperable := by
  obtain ⟨ts, hscan, derived⟩ := exists_derives_of_ofSource h
  exact derived.forall_expressions (yields_isOperable (isOrdinary_of_scan hscan))

/-- A program that was compiled from a source binds no constant. -/
theorem constant?_assigned_of_ofSource (h : ofSource src = .ok p) :
    ∀ s ∈ p.statements, ∀ x ∈ s.assigned, constant? x = none := by
  obtain ⟨ts, _, derived⟩ := exists_derives_of_ofSource h
  intro s hs x hx
  exact derived.constant?_assigned x (List.mem_flatMap.2 ⟨s, hs, hx⟩)

end Program

end Pseudocode

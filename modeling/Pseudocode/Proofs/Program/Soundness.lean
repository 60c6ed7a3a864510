import Pseudocode.Proofs.Program.Grammar
import Pseudocode.Proofs.Program.Steps

/-!
# What the parser accepts is derived

A state of the parser is a program with a gap, and `StateFrom` says which tokens make it: each piece
in front of the gap has been spelt by its own stretch of tokens. One token keeps this relation, so a
whole run does, and a program that has ended comes with its derivation.

Nothing here depends on how a reserved word is told from its text. The parser does it in two ways,
and the derivation is one under any reading that both ways respect.
-/

namespace Pseudocode

/-- The two ways in which the parser recognizes a reserved word: up to case orbits where it expects
that word, and by its lower-case form where a statement starts. -/
def Token.MayRead (t : Token) (k : Keyword) : Prop :=
  t.isKeyword k = true ∨ (t.kind = .keyword ∧ Keyword.ofText? t.value = some k)

namespace Parser

section Pieces

variable (reads : Token → Keyword → Prop)

/-- A list of expressions that goes on behind a comma, or that has not begun. -/
inductive ExprsFrom : List Expr → List Token → Prop where
  | none : ExprsFrom [] []
  | some {es : List Expr} {ts : List Token} {c : Token} (exprs : Derives reads (.exprs es) ts)
      (comma : c.kind = .comma) : ExprsFrom es (ts ++ [c])

/-- The targets of a `Leer` that goes on behind a comma, or that has none yet. -/
inductive TargetsFrom : List Target → List Token → Prop where
  | none : TargetsFrom [] []
  | some {xs : List Target} {ts : List Token} {c : Token} (targets : Derives reads (.targets xs) ts)
      (comma : c.kind = .comma) : TargetsFrom xs (ts ++ [c])

/-- The left operand, the operator and the minus sign in front of an operand. -/
inductive GapFrom : Gap → List Token → Prop where
  | start : GapFrom ⟨none, none⟩ []
  | minus {m : Token} (minus : m.IsMinus) : GapFrom ⟨none, some m.loc⟩ [m]
  | after {o : Token} {lhs : Expr} {ts : List Token} (left : Derives reads (.expr lhs) ts)
      (inner : o.IsInner) : GapFrom ⟨some ⟨o.loc, .ofText o.value, lhs⟩, none⟩ (ts ++ [o])
  | afterMinus {o m : Token} {lhs : Expr} {ts : List Token} (left : Derives reads (.expr lhs) ts)
      (inner : o.IsInner) (minus : m.IsMinus) :
      GapFrom ⟨some ⟨o.loc, .ofText o.value, lhs⟩, some m.loc⟩ (ts ++ [o, m])

/-- The brackets that are open, each behind the gap that it will fill. -/
inductive BracketsFrom : Brackets → List Token → Prop where
  | nil : BracketsFrom [] []
  | group {outer : Brackets} {gap : Gap} {l : Token} {ts us : List Token}
      (around : BracketsFrom outer ts) (front : GapFrom reads gap us) (left : l.kind = .openParen) :
      BracketsFrom ((gap, .group) :: outer) (ts ++ us ++ [l])
  | index {outer : Brackets} {gap : Gap} {x l : Token} {ts us : List Token}
      (around : BracketsFrom outer ts) (front : GapFrom reads gap us) (name : x.IsName)
      (left : l.kind = .openBracket) :
      BracketsFrom ((gap, .index x.loc x.value) :: outer) (ts ++ us ++ [x, l])
  | argument {outer : Brackets} {gap : Gap} {x l : Token} {done : List Expr} {ts us vs : List Token}
      (around : BracketsFrom outer ts) (front : GapFrom reads gap us) (name : x.IsName)
      (left : l.kind = .openParen) (before : ExprsFrom reads done vs) :
      BracketsFrom ((gap, .argument x.loc x.value done) :: outer) (ts ++ us ++ x :: l :: vs)

/-- A `Segun` up to the end of a case. -/
inductive SelectionFrom : Selection → List Token → Prop where
  | mk {k h : Token} {subject : Expr} {cs : List (Expr × List Stmt)} {ts us : List Token}
      (segun : reads k .segun) (value : Derives reads (.subject subject) ts)
      (hacer : reads h .hacer) (cases : Derives reads (.cases cs) us) :
      SelectionFrom ⟨k.loc, subject, cs⟩ (k :: ts ++ h :: us)

/-- A statement up to an expression in it. -/
inductive OpeningFrom : Opening → List Token → Prop where
  | print {k : Token} {done : List Expr} {ts : List Token} (escribir : reads k .escribir)
      (before : ExprsFrom reads done ts) : OpeningFrom (.print k.loc done) (k :: ts)
  | branch {k : Token} (si : reads k .si) : OpeningFrom (.branch k.loc) [k]
  | caseLabel {s : Selection} {c : Token} {ts : List Token} (front : SelectionFrom reads s ts)
      (caso : reads c .caso) : OpeningFrom (.caseLabel s) (ts ++ [c])
  | whileLoop {k : Token} (mientras : reads k .mientras) : OpeningFrom (.whileLoop k.loc) [k]
  | repeatLoop {k h q : Token} {body : List Stmt} {ts : List Token} (repetir : reads k .repetir)
      (block : Derives reads (.block body) ts) (hasta : reads h .hasta) (que : reads q .que) :
      OpeningFrom (.repeatLoop k.loc body) (k :: ts ++ [h, q])
  | dimension {k x l : Token} (dimension : reads k .dimension) (name : x.IsName)
      (left : l.kind = .openBracket) : OpeningFrom (.dimension k.loc x.value) [k, x, l]
  | elementIndex {x l : Token} (kind : x.kind = .identifier) (left : l.kind = .openBracket) :
      OpeningFrom (.elementIndex x.loc x.value) [x, l]
  | assign {x a : Token} (name : x.IsName) (arrow : a.kind = .assignment) :
      OpeningFrom (.assign x.loc x.value) [x, a]
  | assignElement {x l r a : Token} {i : Expr} {ts : List Token} (name : x.IsName)
      (left : l.kind = .openBracket) (index : Derives reads (.expr i) ts)
      (right : r.kind = .closeBracket) (arrow : a.kind = .assignment) :
      OpeningFrom (.assignElement x.loc x.value i) (x :: l :: ts ++ [r, a])

/-- A statement up to a block in it. -/
inductive EnclosingFrom : Enclosing → List Token → Prop where
  | yes {k e : Token} {cond : Expr} {ts : List Token} (si : reads k .si)
      (expr : Derives reads (.expr cond) ts) (entonces : reads e .entonces) :
      EnclosingFrom (.yes k.loc cond) (k :: ts ++ [e])
  | no {k e s : Token} {cond : Expr} {yes : List Stmt} {ts us : List Token} (si : reads k .si)
      (expr : Derives reads (.expr cond) ts) (entonces : reads e .entonces)
      (block : Derives reads (.block yes) us) (sino : reads s .sino) :
      EnclosingFrom (.no k.loc cond yes) (k :: ts ++ e :: us ++ [s])
  | caseBody {s : Selection} {label : Expr} {c d : Token} {ts us : List Token}
      (front : SelectionFrom reads s ts) (caso : reads c .caso)
      (expr : Derives reads (.expr label) us) (colon : d.IsColon) :
      EnclosingFrom (.caseBody s label) (ts ++ (c :: us ++ [d]))
  | otherwise {s : Selection} {d o m c : Token} {ts : List Token} (front : SelectionFrom reads s ts)
      (de : reads d .de) (otro : reads o .otro) (modo : reads m .modo) (colon : c.IsColon) :
      EnclosingFrom (.otherwise s) (ts ++ [d, o, m, c])
  | whileBody {k h : Token} {cond : Expr} {ts : List Token} (mientras : reads k .mientras)
      (expr : Derives reads (.expr cond) ts) (hacer : reads h .hacer) :
      EnclosingFrom (.whileBody k.loc cond) (k :: ts ++ [h])
  | repeatBody {k : Token} (repetir : reads k .repetir) : EnclosingFrom (.repeatBody k.loc) [k]
  | forBody {k x a h g : Token} {first last step : Number} {ts us vs : List Token}
      (para : reads k .para) (name : x.IsName) (arrow : a.kind = .assignment)
      (lower : Derives reads (.bound first) ts) (hasta : reads h .hasta)
      (upper : Derives reads (.bound last) us) (stride : Derives reads (.stride step) vs)
      (hacer : reads g .hacer) :
      EnclosingFrom (.forBody k.loc x.value first last step)
        (k :: x :: a :: ts ++ h :: us ++ vs ++ [g])

/-- The open blocks, innermost last. -/
inductive BlocksFrom : Blocks → List Token → Prop where
  | outermost {k n : Token} {done : List Stmt} {ts : List Token} (algoritmo : reads k .algoritmo)
      (title : n.kind = .identifier) (block : Derives reads (.block done) ts) :
      BlocksFrom ⟨n.value, done, []⟩ (k :: n :: ts)
  | inner {program : Text} {before done : List Stmt} {e : Enclosing}
      {outer : List (List Stmt × Enclosing)} {ts us vs : List Token}
      (around : BlocksFrom ⟨program, before, outer⟩ ts) (front : EnclosingFrom reads e us)
      (block : Derives reads (.block done) vs) :
      BlocksFrom ⟨program, done, (before, e) :: outer⟩ (ts ++ us ++ vs)

/-- The sign of a bound that has been read. -/
inductive SignFrom : Bool → List Token → Prop where
  | none : SignFrom false []
  | minus {m : Token} (minus : m.IsMinus) : SignFrom true [m]

/-- A statement up to a place in its fixed part. -/
inductive HeaderFrom : Header → List Token → Prop where
  | readTarget {k : Token} {done : List Target} {ts : List Token} (leer : reads k .leer)
      (before : TargetsFrom reads done ts) : HeaderFrom (.readTarget k.loc done) (k :: ts)
  | readNext {k : Token} {done : List Target} {ts : List Token} (leer : reads k .leer)
      (targets : Derives reads (.targets done) ts) : HeaderFrom (.readNext k.loc done) (k :: ts)
  | selectSubject {k : Token} (segun : reads k .segun) : HeaderFrom (.selectSubject k.loc) [k]
  | selectHacer {k : Token} {subject : Expr} {ts : List Token} (segun : reads k .segun)
      (value : Derives reads (.subject subject) ts) :
      HeaderFrom (.selectHacer k.loc subject) (k :: ts)
  | selectCase {s : Selection} {ts : List Token} (front : SelectionFrom reads s ts) :
      HeaderFrom (.selectCase s) ts
  | selectOtro {s : Selection} {d : Token} {ts : List Token} (front : SelectionFrom reads s ts)
      (de : reads d .de) : HeaderFrom (.selectOtro s) (ts ++ [d])
  | selectModo {s : Selection} {d o : Token} {ts : List Token} (front : SelectionFrom reads s ts)
      (de : reads d .de) (otro : reads o .otro) : HeaderFrom (.selectModo s) (ts ++ [d, o])
  | selectColon {s : Selection} {d o m : Token} {ts : List Token} (front : SelectionFrom reads s ts)
      (de : reads d .de) (otro : reads o .otro) (modo : reads m .modo) :
      HeaderFrom (.selectColon s) (ts ++ [d, o, m])
  | repeatQue {k h : Token} {body : List Stmt} {ts : List Token} (repetir : reads k .repetir)
      (block : Derives reads (.block body) ts) (hasta : reads h .hasta) :
      HeaderFrom (.repeatQue k.loc body) (k :: ts ++ [h])
  | forVar {k : Token} (para : reads k .para) : HeaderFrom (.forVar k.loc) [k]
  | forArrow {k x : Token} (para : reads k .para) (name : x.IsName) :
      HeaderFrom (.forArrow k.loc x.value) [k, x]
  | forFirst {k x a : Token} {minus : Bool} {ts : List Token} (para : reads k .para)
      (name : x.IsName) (arrow : a.kind = .assignment) (sign : SignFrom minus ts) :
      HeaderFrom (.forFirst k.loc x.value minus) (k :: x :: a :: ts)
  | forHasta {k x a : Token} {first : Number} {ts : List Token} (para : reads k .para)
      (name : x.IsName) (arrow : a.kind = .assignment) (lower : Derives reads (.bound first) ts) :
      HeaderFrom (.forHasta k.loc x.value first) (k :: x :: a :: ts)
  | forLast {k x a h : Token} {first : Number} {minus : Bool} {ts us : List Token}
      (para : reads k .para) (name : x.IsName) (arrow : a.kind = .assignment)
      (lower : Derives reads (.bound first) ts) (hasta : reads h .hasta)
      (sign : SignFrom minus us) :
      HeaderFrom (.forLast k.loc x.value first minus) (k :: x :: a :: ts ++ h :: us)
  | forCon {k x a h : Token} {first last : Number} {ts us : List Token} (para : reads k .para)
      (name : x.IsName) (arrow : a.kind = .assignment) (lower : Derives reads (.bound first) ts)
      (hasta : reads h .hasta) (upper : Derives reads (.bound last) us) :
      HeaderFrom (.forCon k.loc x.value first last) (k :: x :: a :: ts ++ h :: us)
  | forPaso {k x a h c : Token} {first last : Number} {ts us : List Token} (para : reads k .para)
      (name : x.IsName) (arrow : a.kind = .assignment) (lower : Derives reads (.bound first) ts)
      (hasta : reads h .hasta) (upper : Derives reads (.bound last) us) (con : reads c .con) :
      HeaderFrom (.forPaso k.loc x.value first last) (k :: x :: a :: ts ++ h :: us ++ [c])
  | forStep {k x a h c p : Token} {first last : Number} {minus : Bool} {ts us vs : List Token}
      (para : reads k .para) (name : x.IsName) (arrow : a.kind = .assignment)
      (lower : Derives reads (.bound first) ts) (hasta : reads h .hasta)
      (upper : Derives reads (.bound last) us) (con : reads c .con) (paso : reads p .paso)
      (sign : SignFrom minus vs) :
      HeaderFrom (.forStep k.loc x.value first last minus)
        (k :: x :: a :: ts ++ h :: us ++ c :: p :: vs)
  | forHacer {k x a h : Token} {first last step : Number} {ts us vs : List Token}
      (para : reads k .para) (name : x.IsName) (arrow : a.kind = .assignment)
      (lower : Derives reads (.bound first) ts) (hasta : reads h .hasta)
      (upper : Derives reads (.bound last) us) (stride : Derives reads (.stride step) vs) :
      HeaderFrom (.forHacer k.loc x.value first last step) (k :: x :: a :: ts ++ h :: us ++ vs)
  | dimensionName {k : Token} (dimension : reads k .dimension) :
      HeaderFrom (.dimensionName k.loc) [k]
  | dimensionBracket {k x : Token} (dimension : reads k .dimension) (name : x.IsName) :
      HeaderFrom (.dimensionBracket k.loc x.value) [k, x]
  | assignTarget {x : Token} (kind : x.kind = .identifier) :
      HeaderFrom (.assignTarget x.loc x.value) [x]
  | assignArrow {x l r : Token} {i : Expr} {ts : List Token} (kind : x.kind = .identifier)
      (left : l.kind = .openBracket) (index : Derives reads (.expr i) ts)
      (right : r.kind = .closeBracket) :
      HeaderFrom (.assignArrow x.loc x.value i) (x :: l :: ts ++ [r])

/-- The tokens that bring the parser from its start to a state. -/
inductive StateFrom : State → List Token → Prop where
  | start : StateFrom .start []
  | title {k : Token} (algoritmo : reads k .algoritmo) : StateFrom .title [k]
  | block {b : Blocks} {ts : List Token} (blocks : BlocksFrom reads b ts) : StateFrom (.block b) ts
  | header {b : Blocks} {h : Header} {ts us : List Token} (blocks : BlocksFrom reads b ts)
      (header : HeaderFrom reads h us) : StateFrom (.header b h) (ts ++ us)
  | operand {b : Blocks} {o : Opening} {brackets : Brackets} {gap : Gap} {ts us vs ws : List Token}
      (blocks : BlocksFrom reads b ts) (opening : OpeningFrom reads o us)
      (opened : BracketsFrom reads brackets vs) (front : GapFrom reads gap ws) :
      StateFrom (.operand b o brackets gap) (ts ++ us ++ vs ++ ws)
  | named {b : Blocks} {o : Opening} {brackets : Brackets} {gap : Gap} {x : Token}
      {ts us vs ws : List Token} (blocks : BlocksFrom reads b ts) (opening : OpeningFrom reads o us)
      (opened : BracketsFrom reads brackets vs) (front : GapFrom reads gap ws) (name : x.IsName) :
      StateFrom (.named b o brackets gap x.loc x.value) (ts ++ us ++ vs ++ ws ++ [x])
  | arguments {b : Blocks} {o : Opening} {brackets : Brackets} {gap : Gap} {x l : Token}
      {ts us vs ws : List Token} (blocks : BlocksFrom reads b ts) (opening : OpeningFrom reads o us)
      (opened : BracketsFrom reads brackets vs) (front : GapFrom reads gap ws) (name : x.IsName)
      (left : l.kind = .openParen) :
      StateFrom (.arguments b o brackets gap x.loc x.value) (ts ++ us ++ vs ++ ws ++ [x, l])
  | value {b : Blocks} {o : Opening} {brackets : Brackets} {e : Expr} {ts us vs ws : List Token}
      (blocks : BlocksFrom reads b ts) (opening : OpeningFrom reads o us)
      (opened : BracketsFrom reads brackets vs) (expr : Derives reads (.expr e) ws) :
      StateFrom (.value b o brackets e) (ts ++ us ++ vs ++ ws)
  | ended {p : Program} {ts : List Token} (program : Derives reads (.program p) ts) :
      StateFrom (.ended p) ts

end Pieces

variable {reads : Token → Keyword → Prop}

theorem ExprsFrom.snoc {done : List Expr} {e : Expr} {ts us : List Token}
    (before : ExprsFrom reads done ts) (expr : Derives reads (.expr e) us) :
    Derives reads (.exprs (done ++ [e])) (ts ++ us) := by
  cases before with
  | none => exact .firstExpr expr
  | some exprs comma => simpa using Derives.nextExpr exprs comma expr

theorem TargetsFrom.snoc {done : List Target} {x : Token} {ts : List Token}
    (before : TargetsFrom reads done ts) (name : x.IsName) :
    Derives reads (.targets (done ++ [⟨x.loc, x.value⟩])) (ts ++ [x]) := by
  cases before with
  | none => exact .firstTarget name
  | some targets comma => simpa using Derives.nextTarget targets comma name

/-- An operand completes the expression whose left part stands in front of the gap. -/
theorem GapFrom.fill {gap : Gap} {e : Expr} {ts us : List Token} (front : GapFrom reads gap ts)
    (operand : Derives reads (.operand e) us) : Derives reads (.expr (gap.fill e)) (ts ++ us) := by
  cases front with
  | start => exact .single (.plain operand)
  | minus minus => exact .single (.negated minus operand)
  | after left inner => simpa [Gap.fill] using Derives.operation left inner (.plain operand)
  | afterMinus left inner minus =>
    simpa [Gap.fill] using Derives.operation left inner (.negated minus operand)

theorem GapFrom.negate {gap : Gap} {m : Token} {ts : List Token} (front : GapFrom reads gap ts)
    (unsigned : gap.minus = none) (minus : m.IsMinus) :
    GapFrom reads { gap with minus := some m.loc } (ts ++ [m]) := by
  cases front with
  | start => exact .minus minus
  | minus => cases unsigned
  | after left inner => simpa using GapFrom.afterMinus left inner minus
  | afterMinus => cases unsigned

theorem SignFrom.bound {minus : Bool} {t : Token} {n : Number} {ts : List Token}
    (sign : SignFrom minus ts) (kind : t.kind = .number)
    (value : Number.ofText? t.value = some n) :
    Derives reads (.bound (if minus then -n else n)) (ts ++ [t]) := by
  cases sign with
  | none => exact .boundAbove kind value
  | minus minus => exact .boundBelow minus kind value

theorem BlocksFrom.add {b : Blocks} {s : Stmt} {ts us : List Token} (blocks : BlocksFrom reads b ts)
    (stmt : Derives reads (.stmt s) us) : BlocksFrom reads (b.add s) (ts ++ us) := by
  cases blocks with
  | outermost algoritmo title block =>
    exact .outermost algoritmo title (.nextStmt block stmt)
  | inner around front block =>
    simpa [Blocks.add] using BlocksFrom.inner around front (.nextStmt block stmt)

theorem BlocksFrom.enter {b : Blocks} {e : Enclosing} {ts us : List Token}
    (blocks : BlocksFrom reads b ts) (front : EnclosingFrom reads e us) :
    BlocksFrom reads (b.enter e) (ts ++ us) := by
  simpa [Blocks.enter] using BlocksFrom.inner blocks front .noStmts

theorem StateFrom.expression {b : Blocks} {o : Opening} {ts us : List Token}
    (blocks : BlocksFrom reads b ts) (opening : OpeningFrom reads o us) :
    StateFrom reads (expression b o) (ts ++ us) := by
  simpa [Parser.expression, Gap.start] using StateFrom.operand blocks opening .nil .start

/-! ### One token -/

section Step

variable {t : Token} {s : State}

@[simp] theorem require_eq_ok {what : Expectation} {ok : Bool} {next : State} :
    require t what ok next = .ok s ↔ ok = true ∧ next = s := by
  unfold require expected
  split <;> simp_all

@[simp] theorem requireKeyword_eq_ok {k : Keyword} {next : State} :
    requireKeyword t k next = .ok s ↔ t.isKeyword k = true ∧ next = s := require_eq_ok

@[simp] theorem requireKind_eq_ok {kind : Token.Kind} {next : State} :
    requireKind t kind next = .ok s ↔ t.kind = kind ∧ next = s := by
  simp [requireKind]

@[simp] theorem expected_eq_ok {what : Expectation} : ¬ expected t what = .ok s := by
  simp [expected]

theorem requireName_eq_ok {next : Text → State} :
    requireName t next = .ok s ↔ t.IsName ∧ next t.value = s := by
  unfold requireName Token.IsName
  split
  · next h => simp [h]
  split
  · next h => simp [Option.ne_none_iff_isSome.2 h]
  · next hkind h => simp_all

theorem isMinus_of_isOperator (h : t.isOperator "-" = true) : t.IsMinus := by
  simp only [Token.isOperator, Bool.and_eq_true, beq_iff_eq] at h
  exact ⟨h.1, (Text.sameFold_mark_iff (b := 45) (by decide) (by decide)).1 h.2⟩

theorem isColon_of_isOperator (h : t.isOperator ":" = true) : t.IsColon := by
  simp only [Token.isOperator, Bool.and_eq_true, beq_iff_eq] at h
  exact ⟨h.1, (Text.sameFold_mark_iff (b := 58) (by decide) (by decide)).1 h.2⟩

/-- A bound goes on with its sign or ends with its number. -/
theorem requireNumber_eq_ok {minus : Bool} {signed : State} {next : Number → State}
    (h : requireNumber t minus signed next = .ok s) :
    (minus = false ∧ t.IsMinus ∧ signed = s) ∨
      ∃ n, t.kind = .number ∧ Number.ofText? t.value = some n ∧
        next (if minus then -n else n) = s := by
  unfold requireNumber at h
  split at h
  · next hsign =>
    simp only [Bool.and_eq_true, Bool.not_eq_true'] at hsign
    exact .inl ⟨hsign.1, isMinus_of_isOperator hsign.2, by simpa using h⟩
  split at h
  · simp at h
  · next hkind =>
    split at h
    · next n hn => exact .inr ⟨n, by simpa using hkind, hn, by simpa using h⟩
    · simp at h

theorem StateFrom.operandStep {b : Blocks} {o : Opening} {brackets : Brackets} {gap : Gap}
    {ts us vs ws : List Token} (blocks : BlocksFrom reads b ts) (opening : OpeningFrom reads o us)
    (opened : BracketsFrom reads brackets vs) (front : GapFrom reads gap ws)
    (h : operandStep b o brackets gap t = .ok s) :
    StateFrom reads s (ts ++ us ++ vs ++ ws ++ [t]) := by
  have filled : ∀ {e}, Derives reads (.operand e) [t] →
      StateFrom reads (.value b o brackets (gap.fill e)) (ts ++ us ++ vs ++ ws ++ [t]) := by
    intro e operand
    simpa using StateFrom.value blocks opening opened (front.fill operand)
  simp only [Parser.operandStep] at h
  split at h
  · next hminus =>
    cases h
    simp only [Bool.and_eq_true, Option.isNone_iff_eq_none] at hminus
    have front := front.negate hminus.1 (isMinus_of_isOperator hminus.2)
    simpa using StateFrom.operand blocks opening opened front
  split at h
  · next left =>
    cases h
    simpa [Gap.start] using StateFrom.operand blocks opening (.group opened front left) .start
  · next kind =>
    split at h
    · next hc =>
      cases h
      exact filled (.constant kind hc)
    · next hc =>
      cases h
      exact .named blocks opening opened front ⟨kind, hc⟩
  · next kind =>
    cases h
    exact filled (.text kind)
  · next kind =>
    split at h
    · next hn =>
      cases h
      exact filled (.number kind hn)
    · simp at h
  · next kind =>
    cases h
    exact filled (.boolean kind)
  · simp at h

variable (respects : ∀ k, t.MayRead k → reads t k)
include respects

theorem reads_of_isKeyword {k : Keyword} (h : t.isKeyword k = true) : reads t k :=
  respects k (.inl h)

theorem StateFrom.statementStep {b : Blocks} {ts : List Token} (blocks : BlocksFrom reads b ts)
    (h : statementStep b t = .ok s) : StateFrom reads s (ts ++ [t]) := by
  have word : ∀ {k}, t.kind = .keyword → Keyword.ofText? t.value = some k → reads t k :=
    fun hkind hk => respects _ (.inr ⟨hkind, hk⟩)
  unfold Parser.statementStep at h
  split at h
  · next kind =>
    cases h
    exact .header blocks (.assignTarget kind)
  · next kind =>
    split at h
    · next hk =>
      cases h
      exact .expression blocks (.print (word kind hk) .none)
    · next hk =>
      cases h
      exact .header blocks (.readTarget (word kind hk) .none)
    · next hk =>
      cases h
      exact .expression blocks (.branch (word kind hk))
    · next hk =>
      cases h
      exact .header blocks (.selectSubject (word kind hk))
    · next hk =>
      cases h
      exact .expression blocks (.whileLoop (word kind hk))
    · next hk =>
      cases h
      exact .block (blocks.enter (.repeatBody (word kind hk)))
    · next hk =>
      cases h
      exact .header blocks (.forVar (word kind hk))
    · next hk =>
      cases h
      exact .header blocks (.dimensionName (word kind hk))
    · simp at h
  · simp at h

theorem StateFrom.statementOr {b : Blocks} {closing : Keyword} {ts : List Token}
    (blocks : BlocksFrom reads b ts) (h : statementOr b closing t = .ok s) :
    StateFrom reads s (ts ++ [t]) := by
  unfold Parser.statementOr at h
  split at h
  · simp at h
  · exact .statementStep respects blocks h

theorem StateFrom.selectionStep {b : Blocks} {sel : Selection} {other : Except ParseError State}
    {ts us : List Token} (blocks : BlocksFrom reads b ts) (front : SelectionFrom reads sel us)
    (h : selectionStep b sel t other = .ok s)
    (rest : other = .ok s → StateFrom reads s (ts ++ us ++ [t])) :
    StateFrom reads s (ts ++ us ++ [t]) := by
  have word : ∀ {k}, t.isKeyword k = true → reads t k := fun hk => reads_of_isKeyword respects hk
  unfold Parser.selectionStep at h
  split at h
  · next hk =>
    cases h
    simpa using StateFrom.expression blocks (.caseLabel front (word hk))
  split at h
  · next hk =>
    cases h
    simpa using StateFrom.header blocks (.selectOtro front (word hk))
  split at h
  · next hk =>
    cases h
    cases front with
    | mk segun value hacer cases =>
      have stmt := Derives.select segun value hacer cases .noOtherwise (word hk)
      simpa using StateFrom.block (blocks.add stmt)
  · exact rest h

theorem StateFrom.blockStep {b : Blocks} {ts : List Token} (blocks : BlocksFrom reads b ts)
    (h : blockStep b t = .ok s) : StateFrom reads s (ts ++ [t]) := by
  have word : ∀ {k}, t.isKeyword k = true → reads t k := fun hk => reads_of_isKeyword respects hk
  have kept := blocks
  unfold Parser.blockStep at h
  cases blocks with
  | outermost algoritmo title block =>
    simp only at h
    split at h
    · next hk =>
      cases h
      exact .ended (.program algoritmo title block (word hk))
    · exact .statementOr respects kept h
  | inner around front block =>
    cases front with
    | yes si expr entonces =>
      simp only at h
      split at h
      · next hk =>
        cases h
        simpa using StateFrom.block (around.enter (.no si expr entonces block (word hk)))
      split at h
      · next hk =>
        cases h
        have stmt := Derives.branch si expr entonces block .noOther (word hk)
        simpa using StateFrom.block (around.add stmt)
      · exact .statementOr respects kept h
    | no si expr entonces yes sino =>
      simp only at h
      split at h
      · next hk =>
        cases h
        have stmt := Derives.branch si expr entonces yes (.other sino block) (word hk)
        simpa using StateFrom.block (around.add stmt)
      · exact .statementOr respects kept h
    | caseBody front caso expr colon =>
      simp only at h
      cases front with
      | mk segun value hacer cases =>
        have more := SelectionFrom.mk segun value hacer (.nextCase cases caso expr colon block)
        have next := StateFrom.selectionStep respects around more h fun h => by
          simpa using StateFrom.statementOr respects kept h
        simpa using next
    | otherwise front de otro modo colon =>
      simp only at h
      split at h
      · next hk =>
        cases h
        cases front with
        | mk segun value hacer cases =>
          have stmt := Derives.select segun value hacer cases (.otherwise de otro modo colon block)
            (word hk)
          simpa using StateFrom.block (around.add stmt)
      · exact .statementOr respects kept h
    | whileBody mientras expr hacer =>
      simp only at h
      split at h
      · next hk =>
        cases h
        have stmt := Derives.whileLoop mientras expr hacer block (word hk)
        simpa using StateFrom.block (around.add stmt)
      · exact .statementOr respects kept h
    | repeatBody repetir =>
      simp only at h
      split at h
      · next hk =>
        cases h
        simpa using StateFrom.header around (.repeatQue repetir block (word hk))
      · exact .statementOr respects kept h
    | forBody para name arrow lower hasta upper stride hacer =>
      simp only at h
      split at h
      · next hk =>
        cases h
        have stmt := Derives.forLoop para name arrow lower hasta upper stride hacer block (word hk)
        simpa using StateFrom.block (around.add stmt)
      · exact .statementOr respects kept h

theorem StateFrom.headerStep {b : Blocks} {hd : Header} {ts us : List Token}
    (blocks : BlocksFrom reads b ts) (header : HeaderFrom reads hd us)
    (h : headerStep b hd t = .ok s) : StateFrom reads s (ts ++ us ++ [t]) := by
  have word : ∀ {k}, t.isKeyword k = true → reads t k := fun hk => reads_of_isKeyword respects hk
  cases header with
  | readTarget leer before =>
    simp only [Parser.headerStep, requireName_eq_ok] at h
    obtain ⟨name, rfl⟩ := h
    simpa using StateFrom.header blocks (.readNext leer (before.snoc name))
  | readNext leer targets =>
    simp only [Parser.headerStep] at h
    split at h
    · next comma =>
      cases h
      simpa using StateFrom.header blocks (.readTarget leer (.some targets comma))
    · exact .blockStep respects (blocks.add (.read leer targets)) h
  | selectSubject segun =>
    simp only [Parser.headerStep, requireKind_eq_ok] at h
    obtain ⟨kind, rfl⟩ := h
    cases hc : constant? t.value with
    | some v => simpa using StateFrom.header blocks (.selectHacer segun (.subjectConstant kind hc))
    | none => simpa using StateFrom.header blocks (.selectHacer segun (.subjectName ⟨kind, hc⟩))
  | selectHacer segun value =>
    obtain ⟨hk, rfl⟩ := requireKeyword_eq_ok.1 h
    simpa using StateFrom.header blocks (.selectCase (.mk segun value (word hk) .noCases))
  | selectCase front =>
    exact .selectionStep respects blocks front h fun h => absurd h expected_eq_ok
  | selectOtro front de =>
    obtain ⟨hk, rfl⟩ := requireKeyword_eq_ok.1 h
    simpa using StateFrom.header blocks (.selectModo front de (word hk))
  | selectModo front de otro =>
    obtain ⟨hk, rfl⟩ := requireKeyword_eq_ok.1 h
    simpa using StateFrom.header blocks (.selectColon front de otro (word hk))
  | selectColon front de otro modo =>
    obtain ⟨hcolon, rfl⟩ := require_eq_ok.1 h
    have front := EnclosingFrom.otherwise front de otro modo (isColon_of_isOperator hcolon)
    simpa using StateFrom.block (blocks.enter front)
  | repeatQue repetir block hasta =>
    obtain ⟨hk, rfl⟩ := requireKeyword_eq_ok.1 h
    simpa using StateFrom.expression blocks (.repeatLoop repetir block hasta (word hk))
  | forVar para =>
    simp only [Parser.headerStep, requireName_eq_ok] at h
    obtain ⟨name, rfl⟩ := h
    simpa using StateFrom.header blocks (.forArrow para name)
  | forArrow para name =>
    obtain ⟨arrow, rfl⟩ := requireKind_eq_ok.1 h
    simpa using StateFrom.header blocks (.forFirst para name arrow .none)
  | forFirst para name arrow sign =>
    simp only [Parser.headerStep] at h
    obtain ⟨rfl, minus, rfl⟩ | ⟨n, kind, value, rfl⟩ := requireNumber_eq_ok h
    · cases sign
      simpa using StateFrom.header blocks (.forFirst para name arrow (.minus minus))
    · simpa using StateFrom.header blocks (.forHasta para name arrow (sign.bound kind value))
  | forHasta para name arrow lower =>
    obtain ⟨hk, rfl⟩ := requireKeyword_eq_ok.1 h
    simpa using StateFrom.header blocks (.forLast para name arrow lower (word hk) .none)
  | forLast para name arrow lower hasta sign =>
    simp only [Parser.headerStep] at h
    obtain ⟨rfl, minus, rfl⟩ | ⟨n, kind, value, rfl⟩ := requireNumber_eq_ok h
    · cases sign
      simpa using StateFrom.header blocks (.forLast para name arrow lower hasta (.minus minus))
    · simpa using StateFrom.header blocks
        (.forCon para name arrow lower hasta (sign.bound kind value))
  | forCon para name arrow lower hasta upper =>
    simp only [Parser.headerStep] at h
    split at h
    · next hk =>
      cases h
      simpa using StateFrom.header blocks (.forPaso para name arrow lower hasta upper (word hk))
    · obtain ⟨hk, rfl⟩ := requireKeyword_eq_ok.1 h
      have front := EnclosingFrom.forBody para name arrow lower hasta upper .strideOne (word hk)
      simpa using StateFrom.block (blocks.enter front)
  | forPaso para name arrow lower hasta upper con =>
    obtain ⟨hk, rfl⟩ := requireKeyword_eq_ok.1 h
    simpa using StateFrom.header blocks
      (.forStep para name arrow lower hasta upper con (word hk) .none)
  | forStep para name arrow lower hasta upper con paso sign =>
    simp only [Parser.headerStep] at h
    obtain ⟨rfl, minus, rfl⟩ | ⟨n, kind, value, rfl⟩ := requireNumber_eq_ok h
    · cases sign
      simpa using StateFrom.header blocks
        (.forStep para name arrow lower hasta upper con paso (.minus minus))
    · have stride := Derives.strideGiven con paso (sign.bound kind value)
      simpa using StateFrom.header blocks (.forHacer para name arrow lower hasta upper stride)
  | forHacer para name arrow lower hasta upper stride =>
    obtain ⟨hk, rfl⟩ := requireKeyword_eq_ok.1 h
    have front := EnclosingFrom.forBody para name arrow lower hasta upper stride (word hk)
    simpa using StateFrom.block (blocks.enter front)
  | dimensionName dimension =>
    simp only [Parser.headerStep, requireName_eq_ok] at h
    obtain ⟨name, rfl⟩ := h
    simpa using StateFrom.header blocks (.dimensionBracket dimension name)
  | dimensionBracket dimension name =>
    obtain ⟨left, rfl⟩ := requireKind_eq_ok.1 h
    simpa using StateFrom.expression blocks (.dimension dimension name left)
  | assignTarget kind =>
    simp only [Parser.headerStep] at h
    split at h
    · next left =>
      cases h
      simpa using StateFrom.expression blocks (.elementIndex kind left)
    split at h
    · simp at h
    split at h
    · simp at h
    · next arrow free =>
      cases h
      have name := Option.not_isSome_iff_eq_none.1 free
      simpa using StateFrom.expression blocks (.assign ⟨kind, name⟩ (by simpa using arrow))
  | assignArrow kind left index right =>
    simp only [Parser.headerStep] at h
    split at h
    · simp at h
    split at h
    · simp at h
    · next arrow free =>
      cases h
      have name := Option.not_isSome_iff_eq_none.1 free
      simpa using StateFrom.expression blocks
        (.assignElement ⟨kind, name⟩ left index right (by simpa using arrow))

theorem StateFrom.openingStep {b : Blocks} {o : Opening} {e : Expr} {ts us vs : List Token}
    (blocks : BlocksFrom reads b ts) (opening : OpeningFrom reads o us)
    (expr : Derives reads (.expr e) vs) (h : openingStep b o e t = .ok s) :
    StateFrom reads s (ts ++ us ++ vs ++ [t]) := by
  have word : ∀ {k}, t.isKeyword k = true → reads t k := fun hk => reads_of_isKeyword respects hk
  cases opening with
  | print escribir before =>
    simp only [Parser.openingStep] at h
    split at h
    · next comma =>
      cases h
      simpa using StateFrom.expression blocks (.print escribir (.some (before.snoc expr) comma))
    · have stmt := Derives.print escribir (before.snoc expr)
      simpa using StateFrom.blockStep respects (blocks.add stmt) h
  | branch si =>
    obtain ⟨hk, rfl⟩ := requireKeyword_eq_ok.1 h
    simpa using StateFrom.block (blocks.enter (.yes si expr (word hk)))
  | caseLabel front caso =>
    obtain ⟨hcolon, rfl⟩ := require_eq_ok.1 h
    have front := EnclosingFrom.caseBody front caso expr (isColon_of_isOperator hcolon)
    simpa using StateFrom.block (blocks.enter front)
  | whileLoop mientras =>
    obtain ⟨hk, rfl⟩ := requireKeyword_eq_ok.1 h
    simpa using StateFrom.block (blocks.enter (.whileBody mientras expr (word hk)))
  | repeatLoop repetir block hasta que =>
    have stmt := Derives.repeatLoop repetir block hasta que expr
    simpa using StateFrom.blockStep respects (blocks.add stmt) h
  | dimension dimension name left =>
    obtain ⟨right, rfl⟩ := requireKind_eq_ok.1 h
    simpa using StateFrom.block (blocks.add (.dimension dimension name left expr right))
  | elementIndex kind left =>
    obtain ⟨right, rfl⟩ := requireKind_eq_ok.1 h
    simpa using StateFrom.header blocks (.assignArrow kind left expr right)
  | assign name arrow =>
    simpa using StateFrom.blockStep respects (blocks.add (.assign name arrow expr)) h
  | assignElement name left index right arrow =>
    have stmt := Derives.assignElement name left index right arrow expr
    simpa using StateFrom.blockStep respects (blocks.add stmt) h

theorem StateFrom.valueStep {b : Blocks} {o : Opening} {brackets : Brackets} {e : Expr}
    {ts us vs ws : List Token} (blocks : BlocksFrom reads b ts) (opening : OpeningFrom reads o us)
    (opened : BracketsFrom reads brackets vs) (expr : Derives reads (.expr e) ws)
    (h : valueStep b o brackets e t = .ok s) : StateFrom reads s (ts ++ us ++ vs ++ ws ++ [t]) := by
  simp only [Parser.valueStep] at h
  split at h
  · next inner =>
    cases h
    simpa using StateFrom.operand blocks opening opened (.after expr inner)
  cases opened with
  | nil => simpa using StateFrom.openingStep respects blocks opening expr h
  | group around front left =>
    obtain ⟨right, rfl⟩ := requireKind_eq_ok.1 h
    simpa using StateFrom.value blocks opening around (front.fill (.group left expr right))
  | index around front name left =>
    obtain ⟨right, rfl⟩ := requireKind_eq_ok.1 h
    simpa using StateFrom.value blocks opening around (front.fill (.element name left expr right))
  | argument around front name left before =>
    simp only at h
    split at h
    · next comma =>
      cases h
      have opened := BracketsFrom.argument around front name left (.some (before.snoc expr) comma)
      simpa [Gap.start] using StateFrom.operand blocks opening opened .start
    · obtain ⟨right, rfl⟩ := requireKind_eq_ok.1 h
      have operand := Derives.call name left (before.snoc expr) right
      simpa using StateFrom.value blocks opening around (front.fill operand)

/-- One token of the program keeps the relation between a state and the tokens it comes from. -/
theorem StateFrom.step {st : State} {ts : List Token} (from_ : StateFrom reads st ts)
    (notEnd : t.kind ≠ .endOfInput) (h : step st t = .ok s) : StateFrom reads s (ts ++ [t]) := by
  cases from_ with
  | start =>
    obtain ⟨hk, rfl⟩ := requireKeyword_eq_ok.1 h
    exact .title (reads_of_isKeyword respects hk)
  | title algoritmo =>
    obtain ⟨kind, rfl⟩ := require_eq_ok.1 h
    exact .block (.outermost algoritmo (by simpa using kind) .noStmts)
  | block blocks => exact .blockStep respects blocks h
  | header blocks header => exact .headerStep respects blocks header h
  | operand blocks opening opened front =>
    exact .operandStep blocks opening opened front h
  | named blocks opening opened front name =>
    simp only [Parser.step] at h
    split at h
    · next left =>
      cases h
      simpa using StateFrom.arguments blocks opening opened front name left
    split at h
    · next left =>
      cases h
      simpa [Gap.start] using
        StateFrom.operand blocks opening (.index opened front name left) .start
    · have expr := front.fill (.name name)
      simpa using StateFrom.valueStep respects blocks opening opened expr h
  | arguments blocks opening opened front name left =>
    simp only [Parser.step] at h
    split at h
    · next right =>
      cases h
      simpa using StateFrom.value blocks opening opened (front.fill (.callNone name left right))
    · have opened := BracketsFrom.argument opened front name left .none
      simpa using StateFrom.operandStep blocks opening opened .start h
  | value blocks opening opened expr => exact .valueStep respects blocks opening opened expr h
  | ended program =>
    obtain ⟨kind, -⟩ := require_eq_ok.1 h
    exact absurd (by simpa using kind) notEnd

end Step

/-- All tokens of a list keep the relation, when none of them is an end. -/
theorem StateFrom.run {st s : State} {ts us : List Token} (from_ : StateFrom reads st ts)
    (notEnd : ∀ t ∈ us, t.kind ≠ .endOfInput) (respects : ∀ t ∈ us, ∀ k, t.MayRead k → reads t k)
    (h : Leads st us s) : StateFrom reads s (ts ++ us) := by
  induction us generalizing st ts with
  | nil =>
    cases h
    simpa using from_
  | cons t us ih =>
    obtain ⟨st', hstep, rest⟩ := h.cons_inv
    have next := from_.step (respects t (by simp)) (notEnd t (by simp)) hstep
    simpa using ih next (fun t ht => notEnd t (by simp [ht]))
      (fun t ht => respects t (by simp [ht])) rest

end Parser

/-- What the parser accepts is derived, whatever reading of reserved words it respects. -/
theorem Program.derives_of_ofTokens {reads : Token → Keyword → Prop} {ts : List Token} {p : Program}
    (notEnd : ∀ t ∈ ts, t.kind ≠ .endOfInput) (respects : ∀ t ∈ ts, ∀ k, t.MayRead k → reads t k)
    (h : Program.ofTokens ts = .ok p) : Derives reads (.program p) ts := by
  unfold Program.ofTokens at h
  cases hrun : ts.foldlM Parser.step .start with
  | error e => simp [hrun, bind, Except.bind] at h
  | ok s =>
    simp only [hrun, bind, Except.bind] at h
    have from_ := Parser.StateFrom.run .start notEnd respects hrun
    rw [List.nil_append] at from_
    obtain rfl | rfl := Parser.finish_eq_ok rfl h
    · cases from_
      assumption
    · cases from_

end Pseudocode

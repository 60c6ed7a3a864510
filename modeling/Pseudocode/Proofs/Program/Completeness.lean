import Pseudocode.Proofs.Program.Grammar
import Pseudocode.Proofs.Program.Steps

/-!
# What is derived the parser accepts

The tokens of a phrase lead the parser from a gap where the phrase may stand to the gap behind it.
The parser does not look ahead: after a name it does not know yet whether arguments follow, and
after a statement that ends in an expression it does not know that the statement has ended. So what
a phrase leads to is a state that *acts* like the gap behind it, on all tokens that the grammar
allows there. No token that begins a statement or closes a block goes on with an expression, and
this is why taking tokens as long as they fit never takes one that belongs to what follows.
-/

namespace Pseudocode

namespace Keyword

private theorem find?_text (k : Keyword) : all.find? (fun k' => k'.text == k.text) = some k := by
  cases k <;> decide

theorem text_inj {k k' : Keyword} (h : k.text = k'.text) : k = k' := by
  have hk := find?_text k
  rw [h, find?_text k'] at hk
  exact (Option.some.inj hk).symm

theorem isAscii_text (k : Keyword) : k.text.IsAscii := by
  cases k <;> decide

theorem asciiLower_text (k : Keyword) : k.text.asciiLower = k.text := by
  cases k <;> decide

end Keyword

namespace Token

variable {t : Token} {k : Keyword}

theorem Spells.isAscii (h : t.Spells k) : t.value.IsAscii :=
  .of_asciiLower (h.2 ▸ k.isAscii_text)

/-- A spelt word is found among the reserved words. -/
theorem Spells.ofText? (h : t.Spells k) : Keyword.ofText? t.value = some k := by
  rw [Keyword.ofText?, h.isAscii.lower_eq, h.2]
  exact Keyword.find?_text k

/-- A spelt word is that one reserved word and no other. -/
theorem Spells.isKeyword (h : t.Spells k) (k' : Keyword) : t.isKeyword k' = decide (k = k') := by
  have hfold := h.isAscii.sameFold_iff k'.isAscii_text
  rw [h.2, k'.asciiLower_text] at hfold
  rw [Token.isKeyword, h.1, beq_self_eq_true, Bool.true_and, Bool.eq_iff_iff, hfold,
    decide_eq_true_iff]
  exact ⟨Keyword.text_inj, congrArg Keyword.text⟩

theorem IsMinus.isOperator (h : t.IsMinus) : t.isOperator "-" = true := by
  simp only [Token.isOperator, h.1, h.2, beq_self_eq_true, Bool.true_and]
  rfl

theorem IsColon.isOperator (h : t.IsColon) : t.isOperator ":" = true := by
  simp only [Token.isOperator, h.1, h.2, beq_self_eq_true, Bool.true_and]
  rfl

/-- No token of another kind is an operator. -/
theorem isOperator_eq_false (h : t.kind ≠ .operator) (symbol : String) :
    t.isOperator symbol = false := by
  simp [Token.isOperator, h]

end Token

namespace Parser

/-- The tokens lead to a state that acts as one behind the expression `e`. -/
def ReachesValue (s : State) (ts : List Token) (b : Blocks) (o : Opening) (brackets : Brackets)
    (e : Expr) : Prop :=
  ∃ s', Leads s ts s' ∧ ∀ t : Token, t.kind ≠ .openParen → t.kind ≠ .openBracket →
    step s' t = valueStep b o brackets e t

/-- A token that may stand where a statement or the end of a block may. -/
def MayBegin (t : Token) : Prop := t.kind = .identifier ∨ t.kind = .keyword

/-- The tokens lead to a state that acts as one between two statements. -/
def ReachesBlock (s : State) (ts : List Token) (b : Blocks) : Prop :=
  ∃ s', Leads s ts s' ∧ ∀ t, MayBegin t → step s' t = blockStep b t

/-- A state that acts as one behind the cases of a `Segun`. -/
def ActsAsSelection (s : State) (b : Blocks) (loc : Option Location) (subject : Expr)
    (cs : List (Expr × List Stmt)) : Prop :=
  ∀ (t : Token) (k : Keyword), k = .caso ∨ k = .de ∨ k = .finSegun → t.Spells k →
    step s t = selectionStep b ⟨loc, subject, cs⟩ t (expected t (.keyword .caso))

namespace ReachesValue

variable {s : State} {ts us : List Token} {b : Blocks} {o : Opening} {brackets : Brackets}
  {e : Expr}

theorem of_leads (h : Leads s ts (.value b o brackets e)) : ReachesValue s ts b o brackets e :=
  ⟨_, h, fun _ _ _ => rfl⟩

/-- Go on with a token that does not belong to a name in front of it. -/
theorem snoc {t : Token} {s' : State} (h : ReachesValue s ts b o brackets e)
    (hparen : t.kind ≠ .openParen) (hbracket : t.kind ≠ .openBracket)
    (hstep : valueStep b o brackets e t = .ok s') : Leads s (ts ++ [t]) s' := by
  obtain ⟨_, lead, acts⟩ := h
  exact lead.append (.single ((acts t hparen hbracket).trans hstep))

/-- Behind an expression that no bracket encloses, the statement around it goes on. -/
theorem snoc_opening {t : Token} {n : State} (h : ReachesValue s ts b o [] e)
    (hparen : t.kind ≠ .openParen) (hbracket : t.kind ≠ .openBracket) (inner : ¬ t.IsInner)
    (hstep : openingStep b o e t = .ok n) : Leads s (ts ++ [t]) n := by
  refine h.snoc hparen hbracket ?_
  rw [valueStep.eq_def]
  exact (if_neg inner).trans hstep

theorem snoc_keyword {t : Token} {k : Keyword} {s' : State} (h : ReachesValue s ts b o [] e)
    (spells : t.Spells k) (hstep : openingStep b o e t = .ok s') : Leads s (ts ++ [t]) s' :=
  h.snoc_opening (by simp [spells.1]) (by simp [spells.1]) (by simp [Token.IsInner, spells.1]) hstep

theorem prepend {s' : State} (lead : Leads s ts s') (h : ReachesValue s' us b o brackets e) :
    ReachesValue s (ts ++ us) b o brackets e := by
  obtain ⟨s'', rest, acts⟩ := h
  exact ⟨s'', lead.append rest, acts⟩

end ReachesValue

/-- The reserved words that can end a block. -/
def closers : List Keyword :=
  [.finAlgoritmo, .sino, .finSi, .caso, .de, .finSegun, .finMientras, .hasta, .finPara]

/-- A token that ends no block is the first of a statement, unless the tokens end there. -/
theorem blockStep_eq_statementOr {t : Token} (b : Blocks)
    (open_ : ∀ k ∈ closers, t.isKeyword k = false) :
    ∃ closing, blockStep b t = statementOr b closing t := by
  have hc : ∀ k, k ∈ closers → t.isKeyword k = false := open_
  obtain ⟨program, done, outer⟩ := b
  cases outer with
  | nil => exact ⟨.finAlgoritmo, by simp [blockStep, hc .finAlgoritmo (by decide)]⟩
  | cons head outer =>
    obtain ⟨before, enclosing⟩ := head
    cases enclosing with
    | yes => exact ⟨.finSi, by simp [blockStep, hc .sino (by decide), hc .finSi (by decide)]⟩
    | no => exact ⟨.finSi, by simp [blockStep, hc .finSi (by decide)]⟩
    | caseBody =>
      exact ⟨.finSegun, by simp [blockStep, selectionStep, hc .caso (by decide),
        hc .de (by decide), hc .finSegun (by decide)]⟩
    | otherwise => exact ⟨.finSegun, by simp [blockStep, hc .finSegun (by decide)]⟩
    | whileBody => exact ⟨.finMientras, by simp [blockStep, hc .finMientras (by decide)]⟩
    | repeatBody => exact ⟨.hasta, by simp [blockStep, hc .hasta (by decide)]⟩
    | forBody => exact ⟨.finPara, by simp [blockStep, hc .finPara (by decide)]⟩

theorem blockStep_eq_statementStep {t : Token} (b : Blocks)
    (open_ : ∀ k ∈ closers, t.isKeyword k = false) (notEnd : t.kind ≠ .endOfInput) :
    blockStep b t = statementStep b t := by
  obtain ⟨closing, h⟩ := blockStep_eq_statementOr b open_
  rw [h, statementOr, if_neg notEnd]

/-- A spelt word that ends no block begins the statement that it names. -/
theorem blockStep_of_spells {t : Token} {k : Keyword} (h : t.Spells k) (hk : k ∉ closers)
    (b : Blocks) : blockStep b t = statementStep b t := by
  refine blockStep_eq_statementStep b (fun k' hk' => ?_) (by simp [h.1])
  rw [h.isKeyword]
  exact decide_eq_false fun heq => hk (heq ▸ hk')

/-- What is taken between two statements is a name or a reserved word. -/
theorem mayBegin_of_blockStep {t : Token} {b : Blocks} {s : State} (h : blockStep b t = .ok s) :
    MayBegin t := by
  by_cases hid : t.kind = .identifier
  · exact .inl hid
  by_cases hkey : t.kind = .keyword
  · exact .inr hkey
  obtain ⟨closing, hor⟩ := blockStep_eq_statementOr (t := t) b fun k _ => by
    simp [Token.isKeyword, hkey]
  rw [hor, statementOr] at h
  split at h
  · simp [expected] at h
  · unfold statementStep at h
    split at h <;> simp_all

namespace ReachesBlock

variable {s s' : State} {t : Token} {ts us : List Token} {b b' : Blocks}

theorem of_leads (h : Leads s ts (.block b)) : ReachesBlock s ts b := ⟨_, h, fun _ _ => rfl⟩

theorem prepend (lead : Leads s ts s') (h : ReachesBlock s' us b) :
    ReachesBlock s (ts ++ us) b := by
  obtain ⟨s'', rest, acts⟩ := h
  exact ⟨s'', lead.append rest, acts⟩

/-- Go on with the tokens that follow a block or a statement. -/
theorem append (h : ReachesBlock s ts b) (hne : us ≠ []) (rest : Leads (.block b) us s') :
    Leads s (ts ++ us) s' := by
  obtain ⟨_, lead, acts⟩ := h
  obtain ⟨t, us, rfl⟩ := List.exists_cons_of_ne_nil hne
  obtain ⟨_, hstep, rest⟩ := rest.cons_inv
  exact lead.append (.cons ((acts t (mayBegin_of_blockStep hstep)).trans hstep) rest)

/-- A statement that ends with an expression has ended when the next token begins another. -/
theorem of_value {o : Opening} {e : Expr} (h : ReachesValue s ts b o [] e)
    (ends : ∀ t, MayBegin t → openingStep b o e t = blockStep b' t) : ReachesBlock s ts b' := by
  obtain ⟨s', lead, acts⟩ := h
  refine ⟨s', lead, fun t begins => ?_⟩
  have hkind : t.kind ≠ .openParen ∧ t.kind ≠ .openBracket ∧ t.kind ≠ .operator := by
    rcases begins with h | h <;> simp [h]
  rw [acts t hkind.1 hkind.2.1, ← ends t begins, valueStep.eq_def]
  exact if_neg fun inner => hkind.2.2 inner.1

end ReachesBlock

/-- What the parser has to do on the tokens of a phrase, wherever the phrase may stand. -/
def Runs (ts : List Token) : Phrase → Prop
  | .operand e => ∀ b o brackets gap,
      ReachesValue (.operand b o brackets gap) ts b o brackets (gap.fill e)
  | .signed e => ∀ b o brackets pending,
      ReachesValue (.operand b o brackets ⟨pending, none⟩) ts b o brackets
        (Gap.fill ⟨pending, none⟩ e)
  | .expr e => ∀ b o brackets, ReachesValue (.operand b o brackets .start) ts b o brackets e
  | .exprs es => ∀ b (o : List Expr → Opening) (brackets : List Expr → Brackets),
      -- What the list stands in takes a comma as the promise of another expression.
      (∀ done e c, c.kind = .comma → valueStep b (o done) (brackets done) e c =
        .ok (.operand b (o (done ++ [e])) (brackets (done ++ [e])) .start)) →
      ∀ done, ∃ before last, before ++ [last] = done ++ es ∧
        ReachesValue (.operand b (o done) (brackets done) .start) ts b (o before)
          (brackets before) last
  | .targets xs => ∀ b loc done,
      Leads (.header b (.readTarget loc done)) ts (.header b (.readNext loc (done ++ xs)))
  | .subject e => ∀ b loc,
      Leads (.header b (.selectSubject loc)) ts (.header b (.selectHacer loc e))
  | .bound n => ∀ (waiting : Bool → State) (next : Number → State),
      (∀ minus t, step (waiting minus) t = requireNumber t minus (waiting true) next) →
      Leads (waiting false) ts (next n)
  | .stride n => ∀ b loc var first last (h : Token), h.Spells .hacer →
      Leads (.header b (.forCon loc var first last)) (ts ++ [h])
        (.block (b.enter (.forBody loc var first last n)))
  | .otherBranch no => ∀ (b : Blocks) loc cond yes (f : Token), f.Spells .finSi →
      Leads (.block ⟨b.program, yes, (b.done, .yes loc cond) :: b.outer⟩) (ts ++ [f])
        (.block (b.add (.branch loc cond yes no)))
  | .cases cs => ∀ b loc subject, ∃ s,
      Leads (.header b (.selectCase ⟨loc, subject, []⟩)) ts s ∧ ActsAsSelection s b loc subject cs
  | .otherwise ss => ∀ s b loc subject cs (f : Token), ActsAsSelection s b loc subject cs →
      f.Spells .finSegun →
      Leads s (ts ++ [f]) (.block (b.add (.select loc subject cs ss)))
  | .stmt s => ∀ b, ReachesBlock (.block b) ts (b.add s)
  | .block ss => ∀ b : Blocks, ReachesBlock (.block b) ts { b with done := b.done ++ ss }
  | .program p => Leads .start ts (.ended p)

namespace Runs

/-! ### Expressions -/

section Expressions

variable {ts us : List Token} {e : Expr} {es : List Expr}

/-- A token that is an operand by itself. -/
theorem operand_of_step {t : Token} (h : ∀ b o brackets gap,
    operandStep b o brackets gap t = .ok (.value b o brackets (gap.fill e))) :
    Runs [t] (.operand e) :=
  fun b o brackets gap => .of_leads (.single (h b o brackets gap))

theorem text {t : Token} (kind : t.kind = .string) : Runs [t] (.operand (.text t.loc t.value)) :=
  operand_of_step fun _ _ _ _ => by
    simp [operandStep, Token.isOperator_eq_false (t := t) (by simp [kind]), kind]

theorem number {t : Token} {n : Number} (kind : t.kind = .number)
    (value : Number.ofText? t.value = some n) : Runs [t] (.operand (.number t.loc n)) :=
  operand_of_step fun _ _ _ _ => by
    simp [operandStep, Token.isOperator_eq_false (t := t) (by simp [kind]), kind, value]

theorem boolean {t : Token} (kind : t.kind = .boolean) :
    Runs [t] (.operand (.boolean t.loc (t.value.sameFold "verdadero"))) :=
  operand_of_step fun _ _ _ _ => by
    simp [operandStep, Token.isOperator_eq_false (t := t) (by simp [kind]), kind]

theorem constant {t : Token} {n : Number} (kind : t.kind = .identifier)
    (value : constant? t.value = some n) : Runs [t] (.operand (.number t.loc n)) :=
  operand_of_step fun _ _ _ _ => by
    simp [operandStep, Token.isOperator_eq_false (t := t) (by simp [kind]), kind, value]

/-- After a name the parser waits for what is done with it. -/
theorem leads_named {x : Token} (name : x.IsName) (b : Blocks) (o : Opening) (brackets : Brackets)
    (gap : Gap) :
    Leads (.operand b o brackets gap) [x] (.named b o brackets gap x.loc x.value) := by
  refine .single ?_
  simp [step, operandStep, Token.isOperator_eq_false (t := x) (by simp [name.1]), name.1, name.2]

theorem name {x : Token} (name : x.IsName) : Runs [x] (.operand (.name x.loc x.value)) := by
  intro b o brackets gap
  refine ⟨_, leads_named name b o brackets gap, fun t hparen hbracket => ?_⟩
  simp only [step, if_neg hparen, if_neg hbracket]

/-- A closing token is not taken for the start of an index or of arguments. -/
theorem valueStep_of_kind {t : Token} (hkind : t.kind ≠ .operator) (b : Blocks) (o : Opening)
    (outer : Brackets) (gap : Gap) (e : Expr) :
    valueStep b o ((gap, .group) :: outer) e t =
        requireKind t .closeParen (.value b o outer (gap.fill e)) ∧
      ∀ loc x, valueStep b o ((gap, .index loc x) :: outer) e t =
        requireKind t .closeBracket (.value b o outer (gap.fill (.element loc x e))) := by
  simp [valueStep, hkind]

theorem requireKind_of_kind {t : Token} {kind : Token.Kind} (h : t.kind = kind) (next : State) :
    requireKind t kind next = .ok next := by
  simp [requireKind, require, h]

theorem element {x l r : Token} (name : x.IsName) (left : l.kind = .openBracket)
    (index : Runs ts (.expr e)) (right : r.kind = .closeBracket) :
    Runs (x :: l :: ts ++ [r]) (.operand (.element x.loc x.value e)) := by
  intro b o brackets gap
  have opened : Leads (.named b o brackets gap x.loc x.value) [l]
      (.operand b o ((gap, .index x.loc x.value) :: brackets) .start) :=
    .single (by simp [step, left])
  have closed := (index b o ((gap, .index x.loc x.value) :: brackets)).snoc (t := r)
    (by simp [right]) (by simp [right])
    (((valueStep_of_kind (by simp [right]) b o brackets gap e).2 _ _).trans
      (requireKind_of_kind right _))
  exact .of_leads (((leads_named name b o brackets gap).append opened).append closed)

theorem group {l r : Token} (left : l.kind = .openParen) (inner : Runs ts (.expr e))
    (right : r.kind = .closeParen) : Runs (l :: ts ++ [r]) (.operand e) := by
  intro b o brackets gap
  have opened : Leads (.operand b o brackets gap) [l]
      (.operand b o ((gap, .group) :: brackets) .start) :=
    .single (by simp [step, operandStep, Token.isOperator_eq_false (t := l) (by simp [left]), left])
  have closed := (inner b o ((gap, .group) :: brackets)).snoc (t := r)
    (by simp [right]) (by simp [right])
    ((valueStep_of_kind (by simp [right]) b o brackets gap e).1.trans
      (requireKind_of_kind right _))
  exact .of_leads (opened.append closed)

theorem leads_arguments {x l : Token} (name : x.IsName) (left : l.kind = .openParen) (b : Blocks)
    (o : Opening) (brackets : Brackets) (gap : Gap) :
    Leads (.operand b o brackets gap) [x, l] (.arguments b o brackets gap x.loc x.value) :=
  (leads_named name b o brackets gap).append (.single (by simp [step, left]))

theorem callNone {x l r : Token} (name : x.IsName) (left : l.kind = .openParen)
    (right : r.kind = .closeParen) : Runs [x, l, r] (.operand (.call x.loc x.value [])) := by
  intro b o brackets gap
  refine .of_leads ((leads_arguments name left b o brackets gap).append (.single ?_))
  simp [step, right]

/-- Arguments that begin with an operand are read as they are in any list. -/
theorem leads_of_arguments {b : Blocks} {o : Opening} {brackets : Brackets} {gap : Gap}
    {loc : Option Location} {x : Text} {s : State} (hne : ts ≠ [])
    (h : Leads (.operand b o ((gap, .argument loc x []) :: brackets) .start) ts s) :
    Leads (.arguments b o brackets gap loc x) ts s := by
  obtain ⟨t, rest, rfl⟩ := List.exists_cons_of_ne_nil hne
  obtain ⟨s', hstep, lead⟩ := h.cons_inv
  have hkind : t.kind ≠ .closeParen := by
    intro hkind
    simp [step, operandStep, Token.isOperator_eq_false (t := t) (by simp [hkind]), hkind,
      expected] at hstep
  exact .cons (by simpa [step, hkind] using hstep) lead

theorem call {x l r : Token} (name : x.IsName) (left : l.kind = .openParen)
    (args : Runs ts (.exprs es)) (right : r.kind = .closeParen) :
    Runs (x :: l :: ts ++ [r]) (.operand (.call x.loc x.value es)) := by
  intro b o brackets gap
  have comma : ∀ done e (c : Token), c.kind = .comma →
      valueStep b o ((gap, .argument x.loc x.value done) :: brackets) e c =
        .ok (.operand b o ((gap, .argument x.loc x.value (done ++ [e])) :: brackets) .start) := by
    intro done e c hc
    simp [valueStep, hc]
  obtain ⟨before, last, hes, value⟩ :=
    args b (fun _ => o) (fun done => (gap, .argument x.loc x.value done) :: brackets) comma []
  have hstep : valueStep b o ((gap, .argument x.loc x.value before) :: brackets) last r =
      .ok (.value b o brackets (gap.fill (.call x.loc x.value (before ++ [last])))) := by
    simp [valueStep, right, requireKind_of_kind]
  have closed := value.snoc (by simp [right]) (by simp [right]) hstep
  rw [hes] at closed
  exact .of_leads ((leads_arguments name left b o brackets gap).append
    (leads_of_arguments (by simp) closed))

theorem plain (operand : Runs ts (.operand e)) : Runs ts (.signed e) :=
  fun b o brackets pending => operand b o brackets ⟨pending, none⟩

theorem negated {m : Token} (minus : m.IsMinus) (operand : Runs ts (.operand e)) :
    Runs (m :: ts) (.signed (.unary m.loc .negate e)) := by
  intro b o brackets pending
  have sign : Leads (.operand b o brackets ⟨pending, none⟩) [m]
      (.operand b o brackets ⟨pending, some m.loc⟩) :=
    .single (by simp [step, operandStep, minus.isOperator])
  exact .prepend sign (operand b o brackets ⟨pending, some m.loc⟩)

theorem single (operand : Runs ts (.signed e)) : Runs ts (.expr e) :=
  fun b o brackets => operand b o brackets none

theorem operation {op : Token} {lhs rhs : Expr} (left : Runs ts (.expr lhs)) (inner : op.IsInner)
    (right : Runs us (.signed rhs)) :
    Runs (ts ++ op :: us) (.expr (.binary op.loc (.ofText op.value) lhs rhs)) := by
  intro b o brackets
  have hkind := inner.1
  have hstep : valueStep b o brackets lhs op =
      .ok (.operand b o brackets ⟨some ⟨op.loc, .ofText op.value, lhs⟩, none⟩) := by
    rw [valueStep.eq_def]
    exact if_pos inner
  have operator := (left b o brackets).snoc (by simp [hkind]) (by simp [hkind]) hstep
  have value := right b o brackets (some ⟨op.loc, .ofText op.value, lhs⟩)
  simpa [Gap.fill] using ReachesValue.prepend operator value

theorem firstExpr (expr : Runs ts (.expr e)) : Runs ts (.exprs [e]) :=
  fun b o brackets _ done => ⟨done, e, rfl, expr b (o done) (brackets done)⟩

theorem nextExpr {c : Token} (before : Runs ts (.exprs es)) (comma : c.kind = .comma)
    (expr : Runs us (.expr e)) : Runs (ts ++ c :: us) (.exprs (es ++ [e])) := by
  intro b o brackets goesOn done
  obtain ⟨init, last, hes, value⟩ := before b o brackets goesOn done
  have more := value.snoc (by simp [comma]) (by simp [comma]) (goesOn init last c comma)
  rw [hes] at more
  refine ⟨done ++ es, e, by simp, ?_⟩
  simpa using ReachesValue.prepend more (expr b (o (done ++ es)) (brackets (done ++ es)))

end Expressions

/-! ### The parts of statements -/

section Parts

variable {ts us vs : List Token}

theorem requireName_of_isName {x : Token} (name : x.IsName) (next : Text → State) :
    requireName x next = .ok (next x.value) := by
  simp [requireName, name.1, name.2]

theorem requireKeyword_of_spells {t : Token} {k : Keyword} (h : t.Spells k) (next : State) :
    requireKeyword t k next = .ok next := by
  simp [requireKeyword, require, h.isKeyword]

theorem firstTarget {x : Token} (name : x.IsName) : Runs [x] (.targets [⟨x.loc, x.value⟩]) :=
  fun b loc done => .single (by simp [step, headerStep, requireName_of_isName name])

theorem nextTarget {c x : Token} {xs : List Target} (before : Runs ts (.targets xs))
    (comma : c.kind = .comma) (name : x.IsName) :
    Runs (ts ++ [c, x]) (.targets (xs ++ [⟨x.loc, x.value⟩])) := by
  intro b loc done
  refine (before b loc done).append (.cons (m := .header b (.readTarget loc (done ++ xs))) ?_ ?_)
  · simp [step, headerStep, comma]
  · exact .single (by simp [step, headerStep, requireName_of_isName name])

theorem subjectName {x : Token} (name : x.IsName) : Runs [x] (.subject (.name x.loc x.value)) :=
  fun b loc => .single (by simp [step, headerStep, name.2, requireKind_of_kind name.1])

theorem subjectConstant {x : Token} {n : Number} (kind : x.kind = .identifier)
    (value : constant? x.value = some n) : Runs [x] (.subject (.number x.loc n)) :=
  fun b loc => .single (by simp [step, headerStep, value, requireKind_of_kind kind])

theorem requireNumber_of_number {t : Token} {n : Number} (kind : t.kind = .number)
    (value : Number.ofText? t.value = some n) (minus : Bool) (signed : State)
    (next : Number → State) :
    requireNumber t minus signed next = .ok (next (if minus then -n else n)) := by
  simp [requireNumber, Token.isOperator_eq_false (t := t) (by simp [kind]), kind, value]

theorem boundAbove {t : Token} {n : Number} (kind : t.kind = .number)
    (value : Number.ofText? t.value = some n) : Runs [t] (.bound n) := by
  intro waiting next waits
  exact .single (by rw [waits, requireNumber_of_number kind value]; rfl)

theorem boundBelow {m t : Token} {n : Number} (minus : m.IsMinus) (kind : t.kind = .number)
    (value : Number.ofText? t.value = some n) : Runs [m, t] (.bound (-n)) := by
  intro waiting next waits
  refine .cons (m := waiting true) ?_ (.single ?_)
  · simp [waits, requireNumber, minus.isOperator]
  · rw [waits, requireNumber_of_number kind value]
    rfl

theorem strideOne : Runs [] (.stride 1) := by
  intro b loc var first last h hacer
  exact .single (by simp [step, headerStep, hacer.isKeyword, requireKeyword_of_spells hacer])

theorem strideGiven {c p : Token} {n : Number} (con : c.Spells .con) (paso : p.Spells .paso)
    (bound : Runs ts (.bound n)) : Runs (c :: p :: ts) (.stride n) := by
  intro b loc var first last h hacer
  have opened : Leads (.header b (.forCon loc var first last)) [c, p]
      (.header b (.forStep loc var first last false)) := by
    refine .cons (m := .header b (.forPaso loc var first last)) ?_ (.single ?_)
    · simp [step, headerStep, con.isKeyword]
    · simp [step, headerStep, requireKeyword_of_spells paso]
  have number := bound (fun minus => .header b (.forStep loc var first last minus))
    (fun n => .header b (.forHacer loc var first last n)) (fun _ _ => rfl)
  have closed : Leads (.header b (.forHacer loc var first last n)) [h]
      (.block (b.enter (.forBody loc var first last n))) :=
    .single (by simp [step, headerStep, requireKeyword_of_spells hacer])
  simpa using (opened.append number).append closed

end Parts

/-! ### Statements -/

section Statements

variable {ts us vs : List Token} {e : Expr}

theorem leads_assignTarget {x : Token} (kind : x.kind = .identifier) (b : Blocks) :
    Leads (.block b) [x] (.header b (.assignTarget x.loc x.value)) := by
  refine .single ((blockStep_eq_statementStep b (fun k _ => ?_) (by simp [kind])).trans ?_)
  · simp [Token.isKeyword, kind]
  · simp [statementStep, kind]

theorem assign {x a : Token} (name : x.IsName) (arrow : a.kind = .assignment)
    (expr : Runs ts (.expr e)) : Runs (x :: a :: ts) (.stmt (.assign x.loc x.value e)) := by
  intro b
  have opened : Leads (.block b) [x, a] (expression b (.assign x.loc x.value)) :=
    (leads_assignTarget name.1 b).append (.single (by simp [step, headerStep, arrow, name.2]))
  exact .of_value (.prepend opened (expr b _ [])) fun _ _ => rfl

theorem assignElement {x l r a : Token} {i : Expr} (name : x.IsName) (left : l.kind = .openBracket)
    (index : Runs ts (.expr i)) (right : r.kind = .closeBracket) (arrow : a.kind = .assignment)
    (expr : Runs us (.expr e)) :
    Runs (x :: l :: ts ++ r :: a :: us) (.stmt (.assignElement x.loc x.value i e)) := by
  intro b
  have opened : Leads (.block b) [x, l] (expression b (.elementIndex x.loc x.value)) :=
    (leads_assignTarget name.1 b).append (.single (by simp [step, headerStep, left]))
  have indexed := (index b (.elementIndex x.loc x.value) []).snoc_opening (t := r)
    (by simp [right]) (by simp [right]) (by simp [Token.IsInner, right])
    (requireKind_of_kind right (.header b (.assignArrow x.loc x.value i)))
  have arrowed : Leads (.header b (.assignArrow x.loc x.value i)) [a]
      (expression b (.assignElement x.loc x.value i)) :=
    .single (by simp [step, headerStep, arrow, name.2])
  have value := ReachesValue.prepend ((opened.append indexed).append arrowed) (expr b _ [])
  simpa using ReachesBlock.of_value value fun _ _ => rfl

/-- The first word of a statement. -/
theorem leads_statement {t : Token} {k : Keyword} {s : State} {b : Blocks} (h : t.Spells k)
    (hk : k ∉ closers) (hstep : statementStep b t = .ok s) : Leads (.block b) [t] s :=
  .single ((blockStep_of_spells h hk b).trans hstep)

theorem dimension {k x l r : Token} (dimension : k.Spells .dimension) (name : x.IsName)
    (left : l.kind = .openBracket) (size : Runs ts (.expr e)) (right : r.kind = .closeBracket) :
    Runs (k :: x :: l :: ts ++ [r]) (.stmt (.dimension k.loc x.value e)) := by
  intro b
  have word : Leads (.block b) [k] (.header b (.dimensionName k.loc)) :=
    leads_statement dimension (by decide) (by simp [statementStep, dimension.1, dimension.ofText?])
  have named : Leads (.header b (.dimensionName k.loc)) [x, l]
      (expression b (.dimension k.loc x.value)) := by
    refine .cons (m := .header b (.dimensionBracket k.loc x.value)) ?_ (.single ?_)
    · simp [step, headerStep, requireName_of_isName name]
    · simp [step, headerStep, requireKind_of_kind left]
  have closed := (size b (.dimension k.loc x.value) []).snoc_opening (t := r)
    (by simp [right]) (by simp [right]) (by simp [Token.IsInner, right])
    (requireKind_of_kind right (.block (b.add (.dimension k.loc x.value e))))
  exact .of_leads ((word.append named).append closed)

theorem print {k : Token} {es : List Expr} (escribir : k.Spells .escribir)
    (exprs : Runs ts (.exprs es)) : Runs (k :: ts) (.stmt (.print k.loc es)) := by
  intro b
  have word : Leads (.block b) [k] (expression b (.print k.loc [])) :=
    leads_statement escribir (by decide) (by simp [statementStep, escribir.1, escribir.ofText?])
  have comma : ∀ done e (c : Token), c.kind = .comma → valueStep b (.print k.loc done) [] e c =
      .ok (.operand b (.print k.loc (done ++ [e])) [] .start) := by
    intro done e c hc
    simp [valueStep, openingStep, hc, expression]
  obtain ⟨before, last, hes, value⟩ :=
    exprs b (fun done => .print k.loc done) (fun _ => []) comma []
  refine .of_value (.prepend word value) fun t begins => ?_
  have hcomma : t.kind ≠ .comma := by rcases begins with h | h <;> simp [h]
  rw [openingStep, if_neg hcomma, hes, List.nil_append]

theorem read {k : Token} {xs : List Target} (leer : k.Spells .leer)
    (targets : Runs ts (.targets xs)) :
    Runs (k :: ts) (.stmt (.read k.loc xs)) := by
  intro b
  have word : Leads (.block b) [k] (.header b (.readTarget k.loc [])) :=
    leads_statement leer (by decide) (by simp [statementStep, leer.1, leer.ofText?])
  refine ⟨_, word.append (targets b k.loc []), fun t begins => ?_⟩
  have hcomma : t.kind ≠ .comma := by rcases begins with h | h <;> simp [h]
  simp [step, headerStep, hcomma]

end Statements

/-! ### Blocks and the statements around them -/

section Blocks

variable {ts us vs ws : List Token} {cond : Expr} {ss : List Stmt}

theorem noOther : Runs [] (.otherBranch none) := by
  intro b loc cond yes f finSi
  exact .single (by simp [step, blockStep, finSi.isKeyword, Blocks.add])

theorem other {s : Token} (sino : s.Spells .sino) (body : Runs ts (.block ss)) :
    Runs (s :: ts) (.otherBranch (some ss)) := by
  intro b loc cond yes f finSi
  have opened : Leads (.block ⟨b.program, yes, (b.done, .yes loc cond) :: b.outer⟩) [s]
      (.block (b.enter (.no loc cond yes))) :=
    .single (by simp [step, blockStep, sino.isKeyword, Blocks.enter])
  have closed : Leads (.block ⟨b.program, ss, (b.done, .no loc cond yes) :: b.outer⟩) [f]
      (.block (b.add (.branch loc cond yes (some ss)))) :=
    .single (by simp [step, blockStep, finSi.isKeyword, Blocks.add])
  exact opened.append ((body (b.enter (.no loc cond yes))).append (by simp) closed)

theorem branch {k e f : Token} {yes : List Stmt} {no : Option (List Stmt)} (si : k.Spells .si)
    (expr : Runs ts (.expr cond)) (entonces : e.Spells .entonces) (body : Runs us (.block yes))
    (other : Runs vs (.otherBranch no)) (finSi : f.Spells .finSi) :
    Runs (k :: ts ++ e :: us ++ vs ++ [f]) (.stmt (.branch k.loc cond yes no)) := by
  intro b
  have word : Leads (.block b) [k] (expression b (.branch k.loc)) :=
    leads_statement si (by decide) (by simp [statementStep, si.1, si.ofText?])
  have opened := (expr b (.branch k.loc) []).snoc_keyword entonces
    (requireKeyword_of_spells entonces (.block (b.enter (.yes k.loc cond))))
  have closed := (body (b.enter (.yes k.loc cond))).append (by simp)
    (other b k.loc cond yes f finSi)
  simpa using ReachesBlock.of_leads ((word.append opened).append closed)

theorem noCases : Runs [] (.cases []) :=
  fun _ _ _ => ⟨_, .nil _, fun _ _ _ _ => rfl⟩

theorem nextCase {c d : Token} {cs : List (Expr × List Stmt)} {label : Expr}
    (before : Runs ts (.cases cs)) (caso : c.Spells .caso) (expr : Runs us (.expr label))
    (colon : d.IsColon) (body : Runs vs (.block ss)) :
    Runs (ts ++ (c :: us ++ d :: vs)) (.cases (cs ++ [(label, ss)])) := by
  intro b loc subject
  obtain ⟨s, lead, acts⟩ := before b loc subject
  have word : Leads s [c] (expression b (.caseLabel ⟨loc, subject, cs⟩)) := by
    refine .single ((acts c .caso (.inl rfl) caso).trans ?_)
    simp [selectionStep, caso.isKeyword]
  have opened := (expr b (.caseLabel ⟨loc, subject, cs⟩) []).snoc_opening (t := d)
    (n := .block (b.enter (.caseBody ⟨loc, subject, cs⟩ label))) (by simp [colon.1])
    (by simp [colon.1]) (fun inner => inner.2 colon.2)
    (by simp [openingStep, require, colon.isOperator])
  obtain ⟨s', block, ends⟩ := body (b.enter (.caseBody ⟨loc, subject, cs⟩ label))
  refine ⟨s', by simpa using ((lead.append word).append opened).append block, ?_⟩
  intro t k hk spells
  rw [ends t (.inr spells.1)]
  rcases hk with rfl | rfl | rfl <;>
    simp [blockStep, Blocks.enter, selectionStep, spells.isKeyword]

theorem noOtherwise : Runs [] (.otherwise []) := by
  intro s b loc subject cs f acts finSegun
  refine .single ((acts f .finSegun (.inr (.inr rfl)) finSegun).trans ?_)
  simp [selectionStep, finSegun.isKeyword]

theorem otherwise {d o m c : Token} (de : d.Spells .de) (otro : o.Spells .otro)
    (modo : m.Spells .modo) (colon : c.IsColon) (body : Runs ts (.block ss)) :
    Runs (d :: o :: m :: c :: ts) (.otherwise ss) := by
  intro s b loc subject cs f acts finSegun
  have words : Leads s [d, o, m, c] (.block (b.enter (.otherwise ⟨loc, subject, cs⟩))) := by
    refine .cons (m := .header b (.selectOtro ⟨loc, subject, cs⟩)) ?_ ?_
    · rw [acts d .de (.inr (.inl rfl)) de]
      simp [selectionStep, de.isKeyword]
    refine .cons (m := .header b (.selectModo ⟨loc, subject, cs⟩)) ?_ ?_
    · simp [step, headerStep, requireKeyword_of_spells otro]
    refine .cons (m := .header b (.selectColon ⟨loc, subject, cs⟩)) ?_ (.single ?_)
    · simp [step, headerStep, requireKeyword_of_spells modo]
    · simp [step, headerStep, require, colon.isOperator]
  have closed : Leads (.block ⟨b.program, ss, (b.done, .otherwise ⟨loc, subject, cs⟩) :: b.outer⟩)
      [f] (.block (b.add (.select loc subject cs ss))) :=
    .single (by simp [step, blockStep, finSegun.isKeyword, Blocks.add])
  exact words.append ((body (b.enter (.otherwise ⟨loc, subject, cs⟩))).append (by simp) closed)

theorem select {k h f : Token} {subject : Expr} {cs : List (Expr × List Stmt)}
    (segun : k.Spells .segun) (value : Runs ts (.subject subject)) (hacer : h.Spells .hacer)
    (cases : Runs us (.cases cs)) (rest : Runs vs (.otherwise ss)) (finSegun : f.Spells .finSegun) :
    Runs (k :: ts ++ h :: us ++ vs ++ [f]) (.stmt (.select k.loc subject cs ss)) := by
  intro b
  have word : Leads (.block b) [k] (.header b (.selectSubject k.loc)) :=
    leads_statement segun (by decide) (by simp [statementStep, segun.1, segun.ofText?])
  have opened : Leads (.header b (.selectHacer k.loc subject)) [h]
      (.header b (.selectCase ⟨k.loc, subject, []⟩)) :=
    .single (by simp [step, headerStep, requireKeyword_of_spells hacer])
  obtain ⟨s, read, acts⟩ := cases b k.loc subject
  have closed := rest s b k.loc subject cs f acts finSegun
  have all := (((word.append (value b k.loc)).append opened).append read).append closed
  simpa using ReachesBlock.of_leads all

theorem whileLoop {k h f : Token} (mientras : k.Spells .mientras) (expr : Runs ts (.expr cond))
    (hacer : h.Spells .hacer) (body : Runs us (.block ss)) (finMientras : f.Spells .finMientras) :
    Runs (k :: ts ++ h :: us ++ [f]) (.stmt (.whileLoop k.loc cond ss)) := by
  intro b
  have word : Leads (.block b) [k] (expression b (.whileLoop k.loc)) :=
    leads_statement mientras (by decide) (by simp [statementStep, mientras.1, mientras.ofText?])
  have opened := (expr b (.whileLoop k.loc) []).snoc_keyword hacer
    (requireKeyword_of_spells hacer (.block (b.enter (.whileBody k.loc cond))))
  have closed : Leads (.block ⟨b.program, ss, (b.done, .whileBody k.loc cond) :: b.outer⟩) [f]
      (.block (b.add (.whileLoop k.loc cond ss))) :=
    .single (by simp [step, blockStep, finMientras.isKeyword, Blocks.add])
  have inner := (body (b.enter (.whileBody k.loc cond))).append (by simp) closed
  simpa using ReachesBlock.of_leads ((word.append opened).append inner)

theorem repeatLoop {k h q : Token} (repetir : k.Spells .repetir) (body : Runs ts (.block ss))
    (hasta : h.Spells .hasta) (que : q.Spells .que) (expr : Runs us (.expr cond)) :
    Runs (k :: ts ++ h :: q :: us) (.stmt (.repeatLoop k.loc ss cond)) := by
  intro b
  have word : Leads (.block b) [k] (.block (b.enter (.repeatBody k.loc))) :=
    leads_statement repetir (by decide) (by simp [statementStep, repetir.1, repetir.ofText?])
  have closed : Leads (.block ⟨b.program, ss, (b.done, .repeatBody k.loc) :: b.outer⟩) [h, q]
      (expression b (.repeatLoop k.loc ss)) := by
    refine .cons (m := .header b (.repeatQue k.loc ss)) ?_ (.single ?_)
    · simp [step, blockStep, hasta.isKeyword]
    · simp [step, headerStep, requireKeyword_of_spells que]
  have inner := (body (b.enter (.repeatBody k.loc))).append (by simp) closed
  have value := ReachesValue.prepend (word.append inner) (expr b (.repeatLoop k.loc ss) [])
  simpa using ReachesBlock.of_value value fun _ _ => rfl

theorem forLoop {k x a h g f : Token} {first last step : Number} (para : k.Spells .para)
    (name : x.IsName) (arrow : a.kind = .assignment) (lower : Runs ts (.bound first))
    (hasta : h.Spells .hasta) (upper : Runs us (.bound last)) (stride : Runs vs (.stride step))
    (hacer : g.Spells .hacer) (body : Runs ws (.block ss)) (finPara : f.Spells .finPara) :
    Runs (k :: x :: a :: ts ++ h :: us ++ vs ++ g :: ws ++ [f])
      (.stmt (.forLoop k.loc x.value first last step ss)) := by
  intro b
  have word : Leads (.block b) [k] (.header b (.forVar k.loc)) :=
    leads_statement para (by decide) (by simp [statementStep, para.1, para.ofText?])
  have named : Leads (.header b (.forVar k.loc)) [x, a]
      (.header b (.forFirst k.loc x.value false)) := by
    refine .cons (m := .header b (.forArrow k.loc x.value)) ?_ (.single ?_)
    · simp [Parser.step, headerStep, requireName_of_isName name]
    · simp [Parser.step, headerStep, requireKind_of_kind arrow]
  have least := lower (fun minus => .header b (.forFirst k.loc x.value minus))
    (fun n => .header b (.forHasta k.loc x.value n)) (fun _ _ => rfl)
  have upTo : Leads (.header b (.forHasta k.loc x.value first)) [h]
      (.header b (.forLast k.loc x.value first false)) :=
    .single (by simp [Parser.step, headerStep, requireKeyword_of_spells hasta])
  have most := upper (fun minus => .header b (.forLast k.loc x.value first minus))
    (fun n => .header b (.forCon k.loc x.value first n)) (fun _ _ => rfl)
  have opened := stride b k.loc x.value first last g hacer
  have closed : Leads
      (.block ⟨b.program, ss, (b.done, .forBody k.loc x.value first last step) :: b.outer⟩) [f]
      (.block (b.add (.forLoop k.loc x.value first last step ss))) :=
    .single (by simp [Parser.step, blockStep, finPara.isKeyword, Blocks.add])
  have inner := (body (b.enter (.forBody k.loc x.value first last step))).append (by simp) closed
  have header := ((((word.append named).append least).append upTo).append most).append opened
  simpa using ReachesBlock.of_leads (header.append inner)

theorem noStmts : Runs [] (.block []) := by
  intro b
  simpa using ReachesBlock.of_leads (.nil (.block b))

theorem nextStmt {s : Stmt} (before : Runs ts (.block ss)) (stmt : Runs us (.stmt s))
    (hne : us ≠ []) : Runs (ts ++ us) (.block (ss ++ [s])) := by
  intro b
  obtain ⟨s', lead, acts⟩ := stmt { b with done := b.done ++ ss }
  refine ⟨s', (before b).append hne lead, ?_⟩
  simpa [Blocks.add] using acts

theorem program {k n f : Token} (algoritmo : k.Spells .algoritmo) (title : n.kind = .identifier)
    (body : Runs ts (.block ss)) (finAlgoritmo : f.Spells .finAlgoritmo) :
    Runs (k :: n :: ts ++ [f]) (.program ⟨n.value, ss⟩) := by
  have opened : Leads .start [k, n] (.block ⟨n.value, [], []⟩) := by
    refine .cons (m := .title) ?_ (.single ?_)
    · simp [step, requireKeyword_of_spells algoritmo]
    · simp [step, require, title]
  have closed : Leads (.block ⟨n.value, ss, []⟩) [f] (.ended ⟨n.value, ss⟩) :=
    .single (by simp [step, blockStep, finAlgoritmo.isKeyword])
  exact opened.append ((body ⟨n.value, [], []⟩).append (by simp) closed)

end Blocks

end Runs

theorem ne_nil_of_stmt {reads : Token → Keyword → Prop} {s : Stmt} {ts : List Token}
    (h : Derives reads (.stmt s) ts) : ts ≠ [] := by
  cases h <;> simp

end Parser

/-- The parser does on the tokens of a derivation what the phrase asks for. -/
theorem Derives.runs {ph : Phrase} {ts : List Token} (h : Derives Token.Spells ph ts) :
    Parser.Runs ts ph := by
  induction h with
  | text kind => exact .text kind
  | number kind value => exact .number kind value
  | boolean kind => exact .boolean kind
  | constant kind value => exact .constant kind value
  | name name => exact .name name
  | element name left _ right index => exact .element name left index right
  | callNone name left right => exact .callNone name left right
  | call name left _ right args => exact .call name left args right
  | group left _ right inner => exact .group left inner right
  | plain _ operand => exact .plain operand
  | negated minus _ operand => exact .negated minus operand
  | single _ operand => exact .single operand
  | operation _ inner _ left right => exact .operation left inner right
  | firstExpr _ expr => exact .firstExpr expr
  | nextExpr _ comma _ before expr => exact .nextExpr before comma expr
  | firstTarget name => exact .firstTarget name
  | nextTarget _ comma name before => exact .nextTarget before comma name
  | subjectName name => exact .subjectName name
  | subjectConstant kind value => exact .subjectConstant kind value
  | boundAbove kind value => exact .boundAbove kind value
  | boundBelow minus kind value => exact .boundBelow minus kind value
  | strideOne => exact .strideOne
  | strideGiven con paso _ bound => exact .strideGiven con paso bound
  | noOther => exact .noOther
  | other sino _ body => exact .other sino body
  | noCases => exact .noCases
  | nextCase _ caso _ colon _ before expr body => exact .nextCase before caso expr colon body
  | noOtherwise => exact .noOtherwise
  | otherwise de otro modo colon _ body => exact .otherwise de otro modo colon body
  | assign name arrow _ expr => exact .assign name arrow expr
  | assignElement name left _ right arrow _ index expr =>
    exact .assignElement name left index right arrow expr
  | dimension dimension name left _ right size => exact .dimension dimension name left size right
  | print escribir _ exprs => exact .print escribir exprs
  | read leer _ targets => exact .read leer targets
  | branch si _ entonces _ _ finSi expr body other =>
    exact .branch si expr entonces body other finSi
  | select segun _ hacer _ _ finSegun value cases rest =>
    exact .select segun value hacer cases rest finSegun
  | whileLoop mientras _ hacer _ finMientras expr body =>
    exact .whileLoop mientras expr hacer body finMientras
  | repeatLoop repetir _ hasta que _ body expr => exact .repeatLoop repetir body hasta que expr
  | forLoop para name arrow _ hasta _ _ hacer _ finPara lower upper stride body =>
    exact .forLoop para name arrow lower hasta upper stride hacer body finPara
  | noStmts => exact .noStmts
  | nextStmt _ stmt before runs => exact .nextStmt before runs (Parser.ne_nil_of_stmt stmt)
  | program algoritmo title _ finAlgoritmo body =>
    exact .program algoritmo title body finAlgoritmo

/-- What is derived the parser accepts, with the tree of the derivation. -/
theorem Program.ofTokens_of_derives {ts : List Token} {p : Program}
    (h : Derives Token.Spells (.program p) ts) : Program.ofTokens ts = .ok p := by
  have lead : ts.foldlM Parser.step .start = .ok (.ended p) := h.runs
  rw [Program.ofTokens, lead]
  rfl

end Pseudocode

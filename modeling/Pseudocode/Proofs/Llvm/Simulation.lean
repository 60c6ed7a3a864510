import Pseudocode.Proofs.Llvm.Follows
import Pseudocode.Proofs.Run.Bindings

/-!
# The code does what the program does

A run of a numeric program that comes to its end is followed by an execution of its code, which
comes to its end too, if the program reads current values. The proof goes along the text of the
program, statement by statement, and puts the rules together in the order in which the blocks of a
statement are entered.
-/

namespace Pseudocode

open Llvm Draft

/-- A loop with a counter. -/
def Stmt.IsFor : Stmt → Prop
  | .forLoop _ _ _ _ _ _ => True
  | _ => False

instance : DecidablePred Stmt.IsFor
  | .forLoop _ _ _ _ _ _ => isTrue trivial
  | .assign _ _ _ | .dimension _ _ _ | .assignElement _ _ _ _ | .print _ _ | .read _ _
  | .branch _ _ _ _ | .select _ _ _ _ | .whileLoop _ _ _ | .repeatLoop _ _ _ => isFalse id

/-- A statement of the kind whose code does the same: no loop with a counter, and no sign in an
expression. -/
def Stmt.IsPlain (s : Stmt) : Prop := ¬ s.IsFor ∧ ∀ e ∈ s.operands, e.IsPlain

/-- Wherever the lowering of something has become part of a module, the code follows its
execution. The rounds depend on the labels that were given out before. -/
def Simulates (F : Draft) (stale : List Text) (lower : Lowering Unit) (x : Run Unit)
    (during : Machine → List Observation) (rounds : Nat → Machine → List Round)
    (stale' : List Text) : Prop :=
  ∀ ⦃d d'⦄, lower d = (.ok (), d') → d'.Extends F →
    Follows F ⟨d, stale, Any⟩ x during (rounds d.labels) fun _ => ⟨d', stale', Any⟩

/-- The code of a statement follows its execution. -/
def Stmt.Simulated (F : Draft) (host : Host) (turns : Nat) (stale : List Text) (s : Stmt) : Prop :=
  Simulates F stale s.lower (s.exec host turns) (s.trace host turns) (s.rounds host turns)
    (s.staleAfter stale)

/-- The code of a block follows its execution. -/
def BlockSimulated (F : Draft) (host : Host) (turns : Nat) (stale : List Text) (ss : List Stmt) :
    Prop :=
  Simulates F stale (lowerBlock ss) (execBlock host turns ss) (traceBlock host turns ss)
    (roundsOfBlock host turns ss) (stale ++ counters (partsOfBlock ss))

/-- The code of a second branch follows its execution. -/
def ElseSimulated (F : Draft) (host : Host) (turns : Nat) (stale : List Text)
    (no : Option (List Stmt)) : Prop :=
  Simulates F stale (lowerElse no) (execElse host turns no) (traceElse host turns no)
    (roundsOfElse host turns no) (stale ++ counters (partsOfElse no))

/-- What a block of a loop leaves stale was stale before it, because it may follow itself. -/
theorem BlockSimulated.again {F : Draft} {host : Host} {turns : Nat} {S : List Text}
    {body : List Stmt}
    (h : BlockSimulated F host turns (S ++ counters (partsOfBlock body)) body) :
    Simulates F (S ++ counters (partsOfBlock body)) (lowerBlock body) (execBlock host turns body)
      (traceBlock host turns body) (roundsOfBlock host turns body)
      (S ++ counters (partsOfBlock body)) := by
  intro d d' lowered extend
  refine (h lowered extend).mono fun x hx => ?_
  rcases List.mem_append.1 hx with hx | hx
  · exact hx
  · exact List.mem_append_right _ hx

section Statements

variable {F : Draft} (fresh : Fresh [] F) {host : Host} {turns : Nat} {loc : Option Location}
  {S : List Text}
include fresh

/-- A number was stored in the slot of the variable that was bound. -/
theorem simulated_assign {name : Text} {e : Expr} (plain : e.IsPlain) (avoids : e.Avoids S) :
    (Stmt.assign loc name e).Simulated F host turns S := by
  intro d d' h extend
  rw [Stmt.exec, Stmt.trace, Stmt.rounds]
  refine .checked fresh host loc ((Stmt.grows_lower h).extend.trans extend) ?_
  intro m m' _ ran kinds f t hf tracks
  obtain ⟨w, m₁, ran₁, ran₂⟩ := Action.bind_eq_ok.1 ran
  obtain ⟨v, d₁, hvalue, hassign⟩ := Stmt.lower_assign h
  obtain ⟨grows, declared, label, code, _⟩ := Lowering.assign_eq_ok hassign
  have evaluates := Follows.value (P := Any) fresh host hvalue (grows.extend.trans extend) plain
    avoids fun _ _ _ hf => hf
  obtain ⟨f₁, takes, ⟨_, x, hx, value⟩, tracks₁⟩ := evaluates ran₁ kinds hf tracks
  cases Run.bindVariable_eq_ok ran₂
  obtain ⟨contents, allocated⟩ :=
    Option.isSome_iff_exists.1 (tracks₁.allocated name (extend.slots name declared))
  have stored : execCode [.store v name] f₁ = some (f₁.setSlot name (some x)) := by
    simp [execCode, Instr.exec, value, allocated]
  exact ⟨_, takes.trans (.code fresh extend label code stored), trivial, tracks₁.assigned name hx⟩

/-- The values that were shown were printed, and then the end of the line. -/
theorem simulated_print {exprs : List Expr} (plain : ∀ e ∈ exprs, e.IsPlain)
    (avoids : ∀ e ∈ exprs, e.Avoids S) : (Stmt.print loc exprs).Simulated F host turns S := by
  intro d d' h extend
  rw [Stmt.exec, Stmt.trace, Stmt.rounds]
  refine .checked fresh host loc ((Stmt.grows_lower h).extend.trans extend) ?_
  refine .mono ?_ (List.subset_append_left S _)
  intro m m' _ ran kinds f t hf tracks
  rw [Stmt.lower] at h
  obtain ⟨_, d₁, hexprs, hnewline⟩ := Action.bind_eq_ok.1 h
  obtain ⟨code, emits, prints⟩ := Lowering.emits_printAll hexprs
  obtain ⟨r, emits'⟩ := Lowering.emits_print hnewline
  obtain ⟨line, m₁, ran₁, ran₂⟩ := Action.bind_eq_ok.1 ran
  obtain ⟨drawn, hline, rfl⟩ := Run.evaluating_eq_ok ran₁
  obtain ⟨values, drawn, hvalues, hret⟩ := Action.bind_eq_ok.1 hline
  cases hret
  have evaluates : Run.evaluating (fun store => evalAll host.draws store exprs) m =
      (.ok values, { m with channels.drawn := drawn }) := by
    simp only [Run.evaluating, hvalues]
  rw [Action.observe_of_ok evaluates] at kinds ⊢
  rw [Trace.comparisons_append, Run.evaluationTrace, Trace.comparisons_map] at kinds
  obtain ⟨os, hos, f₁, ran₃, slots₁, printed₁⟩ :=
    prints plain avoids hvalues (SameKinds.append.1 kinds).1 tracks.holds
  have ended : Printed.newline.output? f₁ = some .newline := rfl
  obtain ⟨f₂, ran₄, slots₂, printed₂⟩ := Lowering.prints_define ended r
  obtain ⟨store, log⟩ := Run.writeLine_eq_ok ran₂
  have both := emits.trans emits'
  refine ⟨f₂, .code fresh extend both.label both.code (execCode_append ran₃ ran₄), trivial, ?_⟩
  rw [← List.append_assoc]
  refine (tracks.evaluated evaluates _).shown hos store log (slots₂.trans slots₁) ?_
  rw [printed₂, printed₁, List.append_assoc]

theorem simulated_branch {cond : Expr} {yes : List Stmt} {no : Option (List Stmt)}
    (plain : cond.IsPlain) (avoids : cond.Avoids S) (first : BlockSimulated F host turns S yes)
    (second : ElseSimulated F host turns S no) :
    (Stmt.branch loc cond yes no).Simulated F host turns S := by
  intro d d' h extend
  rw [Stmt.exec, Stmt.trace, Stmt.rounds]
  refine .checked fresh host loc ((Stmt.grows_lower h).extend.trans extend) ?_
  obtain ⟨c, i, j, k, d₁, d₂, d₃, d₄, d₅, d₆, hcond, reserved, opened, hyes, middle, hno, closed,
    given⟩ := Stmt.lower_branch h
  have extend₆ := closed.extend.trans extend
  have extend₅ := (grows_lowerElse hno).extend.trans extend₆
  have extend₄ := middle.extend.trans extend₅
  have extend₃ := (grows_lowerBlock hyes).extend.trans extend₄
  have extend₂ := opened.extend.trans extend₃
  have decided := (Follows.condition fresh host hcond (reserved.extend.trans extend₂) plain
    avoids).andMove fun _ => .reserve fresh reserved extend₂
  refine decided.bind fun v => ?_
  by_cases truth : v.truthy = true
  · have enter : Moves F ⟨d₂, S, _⟩ ⟨d₃, S, Any⟩ := .branch fresh opened extend₃ extend₃
      (opened.label.trans (if_pos truth).symm) opened.code (opened.label ▸ rfl)
    have more : S ++ counters (partsOfBlock yes) ⊆ (Stmt.branch loc cond yes no).staleAfter S :=
      append_counters_subset fun s hs => by simp [Stmt.parts, hs]
    rw [if_pos truth, if_pos truth, if_pos truth, ← given]
    refine .before enter (((first hyes extend₄).mono more).andMove fun _ => ?_)
    exact .jump fresh middle extend₅ extend closed.label closed.code rfl
  · have enter : Moves F ⟨d₂, S, _⟩ ⟨d₅, S, Any⟩ := .branch fresh opened extend₃ extend₅
      (middle.label.trans (if_neg truth).symm) middle.code (middle.label ▸ rfl)
    have more : S ++ counters (partsOfElse no) ⊆ (Stmt.branch loc cond yes no).staleAfter S :=
      append_counters_subset fun s hs => by simp [Stmt.parts, hs]
    rw [if_neg truth, if_neg truth, if_neg truth, ← given, ← labels_lowerBlock hyes, ← middle.count]
    refine .before enter (((second hno extend₆).mono more).andMove fun _ => ?_)
    exact .jump fresh closed extend extend closed.label closed.code rfl

theorem simulated_whileLoop {cond : Expr} {body : List Stmt} (plain : cond.IsPlain)
    (avoids : cond.Avoids (S ++ counters (partsOfBlock body)))
    (inner : BlockSimulated F host turns (S ++ counters (partsOfBlock body)) body) :
    (Stmt.whileLoop loc cond body).Simulated F host turns S := by
  intro d d' h extend
  rw [Stmt.exec, Stmt.trace, Stmt.rounds]
  refine .checked fresh host loc ((Stmt.grows_lower h).extend.trans extend) ?_
  obtain ⟨c, i, j, k, d₁, d₂, d₃, d₄, d₅, reserved, opened, hcond, middle, hbody, closed, given⟩ :=
    Stmt.lower_whileLoop h
  have extend₅ := closed.extend.trans extend
  have extend₄ := (grows_lowerBlock hbody).extend.trans extend₅
  have extend₃ := middle.extend.trans extend₄
  have extend₂ := (Lowering.grows_condition hcond).extend.trans extend₃
  have enter : Moves F ⟨d, S, Any⟩ ⟨d₂, S ++ counters (partsOfBlock body), Any⟩ :=
    ((Moves.reserve fresh reserved (opened.extend.trans extend₂)).trans
      (.jump fresh opened extend₂ extend₂ opened.label opened.code rfl)).mono
        (List.subset_append_left S _)
  have more : S ++ counters (partsOfBlock body) ⊆ (Stmt.whileLoop loc cond body).staleAfter S :=
    append_counters_subset fun s hs => by simp [Stmt.parts, hs]
  refine .before enter (.mono (.loop fresh ?_ extend turns) more)
  -- A turn begins in the block of the condition.
  refine .checked fresh host loc extend₂ ?_
  refine (Follows.condition fresh host hcond extend₃ plain avoids).bind fun v => ?_
  by_cases truth : v.truthy = true
  · have inside : Moves F ⟨d₃, S ++ counters (partsOfBlock body), _⟩ ⟨d₄, _, Any⟩ :=
      .branch fresh middle extend₄ extend₄ (middle.label.trans (if_pos truth).symm) middle.code
        (middle.label ▸ rfl)
    rw [if_pos truth, if_pos truth, if_pos truth, ← given]
    refine .andReturn (.before inside ((inner.again hbody extend₅).andMove fun _ => ?_))
    exact .jump fresh closed extend extend₂ opened.label opened.code rfl
  · have outside : Moves F ⟨d₃, S ++ counters (partsOfBlock body), _⟩ ⟨d', _, Any⟩ :=
      .branch fresh middle extend₄ extend (closed.label.trans (if_neg truth).symm) closed.code
        (closed.label ▸ rfl)
    rw [if_neg truth, if_neg truth, if_neg truth]
    exact .nothing false outside

theorem simulated_repeatLoop {body : List Stmt} {cond : Expr} (plain : cond.IsPlain)
    (avoids : cond.Avoids (S ++ counters (partsOfBlock body)))
    (inner : BlockSimulated F host turns (S ++ counters (partsOfBlock body)) body) :
    (Stmt.repeatLoop loc body cond).Simulated F host turns S := by
  intro d d' h extend
  rw [Stmt.exec, Stmt.trace, Stmt.rounds]
  refine .checked fresh host loc ((Stmt.grows_lower h).extend.trans extend) ?_
  obtain ⟨c, j, k, d₁, d₂, d₃, d₄, reserved, opened, hbody, hcond, closed, given⟩ :=
    Stmt.lower_repeatLoop h
  have extend₄ := closed.extend.trans extend
  have extend₃ := (Lowering.grows_condition hcond).extend.trans extend₄
  have extend₂ := (grows_lowerBlock hbody).extend.trans extend₃
  have enter : Moves F ⟨d, S, Any⟩ ⟨d₂, S ++ counters (partsOfBlock body), Any⟩ :=
    ((Moves.reserve fresh reserved (opened.extend.trans extend₂)).trans
      (.jump fresh opened extend₂ extend₂ opened.label opened.code rfl)).mono
        (List.subset_append_left S _)
  have more : S ++ counters (partsOfBlock body) ⊆ (Stmt.repeatLoop loc body cond).staleAfter S :=
    append_counters_subset fun s hs => by simp [Stmt.parts, hs]
  refine .before enter (.mono (.loop fresh ?_ extend turns) more)
  refine .checked fresh host loc extend₂ ?_
  rw [← given]
  refine (inner.again hbody extend₃).bind fun _ => ?_
  refine .andReturn ((Follows.condition fresh host hcond extend₄ plain avoids).andMove fun v => ?_)
  -- The condition is one for the end, so that its branches are the other way round.
  by_cases truth : v.truthy = true
  · have outside : Moves F ⟨d₄, S ++ counters (partsOfBlock body), _⟩ ⟨d', _, Any⟩ :=
      .branch fresh closed extend extend (closed.label.trans (if_pos truth).symm) closed.code
        (closed.label ▸ rfl)
    simpa [truth] using outside
  · have again : Moves F ⟨d₄, S ++ counters (partsOfBlock body), _⟩ ⟨d₂, _, Any⟩ :=
      .branch fresh closed extend extend₂ (opened.label.trans (if_neg truth).symm) opened.code
        (opened.label ▸ rfl)
    simpa [truth] using again

/-- The comparison of a case comes to the same decision, whichever value comes first in it. -/
theorem moves_compare {d d' : Draft} {subject v : Operand} {r : Register}
    (h : Lowering.define (.compare .oeq subject v) d = (.ok r, d')) (extend : d'.Extends F)
    (below : subject.Below d.registers) {w l : Value} (kinds : l.kind = w.kind) :
    Moves F ⟨d, S, fun f => f.StandsFor subject w ∧ f.StandsFor v l⟩
      ⟨d', S, fun f => f.StandsFor subject w ∧ f.truth? r = some (l.same w)⟩ := by
  obtain ⟨code, emits, _, _, decides⟩ := Lowering.emits_compare h
  refine .code fresh emits extend ?_
  rintro f ⟨standsFor, y, hy, value⟩
  have ⟨x, hx, given⟩ := standsFor
  obtain ⟨f', codeRan, agrees, decided⟩ := decides f x y given value
  refine ⟨f', codeRan, agrees, standsFor.of_agrees agrees below, ?_⟩
  rw [decided, Predicate.holds, Number.beq_comm, Value.beq_eq_same kinds hy hx]

/-- The code from the first of some cases on goes to the end of the statement, whichever case is the
one that is executed. -/
def CasesSimulated (F : Draft) (host : Host) (turns : Nat) (stale stale' : List Text)
    (cases : List (Expr × List Stmt)) : Prop :=
  ∀ ⦃d d₁ d' subject endLabel w other during rounds⦄,
    lowerCases subject endLabel cases d = (.ok (), d₁) → d₁.Extends F → subject.Below d.registers →
    d'.Extends F → d'.label = endLabel → endLabel.beginsRound = false → d'.code = [] →
    Follows F ⟨d₁, stale, Any⟩ other during rounds (fun _ => ⟨d', stale', Any⟩) →
    Follows F ⟨d, stale, fun f => f.StandsFor subject w⟩ (execCases host turns w cases other)
      (traceCases host turns w cases during) (roundsOfCases host turns w cases d.labels rounds)
      fun _ => ⟨d', stale', Any⟩

theorem casesSimulated_cons {S' : List Text} {label : Expr} {body : List Stmt}
    {rest : List (Expr × List Stmt)} (plain : label.IsPlain) (avoids : label.Avoids S)
    (inner : BlockSimulated F host turns S body) (more : S ++ counters (partsOfBlock body) ⊆ S')
    (later : CasesSimulated F host turns S S' rest) :
    CasesSimulated F host turns S S' ((label, body) :: rest) := by
  intro d d₇ d' subject endLabel w other during rounds h extend₇ below extend atEnd ends empty
    hother
  obtain ⟨v, c, j, k, d₁, d₂, d₃, d₄, d₅, d₆, hlabel, reserved, hcompare, opened, hbody, closed,
    hrest, given⟩ := lowerCases_cons h
  have extend₆ := (grows_lowerCases hrest).extend.trans extend₇
  have extend₅ := closed.extend.trans extend₆
  have extend₄ := (grows_lowerBlock hbody).extend.trans extend₅
  have extend₃ := opened.extend.trans extend₄
  have extend₂ := (Lowering.grows_define hcompare).extend.trans extend₃
  have below₂ := below.mono ((Expr.grows_lower hlabel).extend.trans reserved.extend).registers
  have below₆ : subject.Below d₆.registers := below₂.mono
    ((Lowering.grows_define hcompare).extend.trans (opened.extend.trans
      ((grows_lowerBlock hbody).extend.trans closed.extend))).registers
  rw [execCases, traceCases, roundsOfCases]
  have valued := Follows.value fresh host hlabel (reserved.extend.trans extend₂) plain avoids
    fun f f' agrees (hf : f.StandsFor subject w) => hf.of_agrees agrees below
  refine (valued.andMove fun _ => .reserve fresh reserved extend₂).bind fun l => ?_
  refine .comparing fun kinds => .before (moves_compare fresh hcompare extend₃ below₂ kinds) ?_
  by_cases same : l.same w = true
  · have enter : Moves F ⟨d₃, S, _⟩ ⟨d₄, S, fun f => f.StandsFor subject w⟩ :=
      .branch fresh opened extend₄ extend₄ (opened.label.trans (if_pos same).symm) opened.code
        (opened.label ▸ rfl)
    rw [if_pos same, if_pos same, if_pos same, ← given]
    refine .before enter.any (((inner hbody extend₅).mono more).andMove fun _ => ?_)
    exact .jump fresh closed extend₆ extend atEnd empty ends
  · have next : Moves F ⟨d₃, S, _⟩ ⟨d₆, S, fun f => f.StandsFor subject w⟩ :=
      .branch fresh opened extend₄ extend₆ (closed.label.trans (if_neg same).symm) closed.code
        (closed.label ▸ rfl)
    have others := later (w := w) hrest extend₇ below₆ extend atEnd ends empty hother
    rw [if_neg same, if_neg same, if_neg same, ← given, ← labels_lowerBlock hbody, ← closed.count]
    exact .before next others

theorem simulated_select {subject : Expr} {cases : List (Expr × List Stmt)} {otherwise : List Stmt}
    (plain : subject.IsPlain) (avoids : subject.Avoids S)
    (chosen : CasesSimulated F host turns S
      ((Stmt.select loc subject cases otherwise).staleAfter S) cases)
    (rest : BlockSimulated F host turns S otherwise) :
    (Stmt.select loc subject cases otherwise).Simulated F host turns S := by
  intro d d' h extend
  rw [Stmt.exec, Stmt.trace, Stmt.rounds]
  refine .checked fresh host loc ((Stmt.grows_lower h).extend.trans extend) ?_
  obtain ⟨v, k, d₁, d₂, d₃, d₄, hsubject, reserved, hcases, hother, closed, given⟩ :=
    Stmt.lower_select h
  have extend₄ := closed.extend.trans extend
  have extend₃ := (grows_lowerBlock hother).extend.trans extend₄
  have extend₂ := (grows_lowerCases hcases).extend.trans extend₃
  obtain ⟨_, _, below, _⟩ := Expr.emits_lower hsubject
  have valued := Follows.value (P := Any) fresh host hsubject (reserved.extend.trans extend₂) plain
    avoids fun _ _ _ hf => hf
  refine (valued.andMove fun _ => .reserve fresh reserved extend₂).bind fun w => ?_
  have more : S ++ counters (partsOfBlock otherwise) ⊆
      (Stmt.select loc subject cases otherwise).staleAfter S :=
    append_counters_subset fun s hs => by simp [Stmt.parts, hs]
  have otherCode := ((rest hother extend₄).mono more).andMove fun _ =>
    .jump fresh closed extend extend closed.label closed.code rfl
  have casesCode := chosen (w := w) hcases extend₃ (below.mono reserved.extend.registers) extend
    closed.label rfl closed.code otherCode
  rw [← given, ← labels_lowerCases hcases]
  exact casesCode.weaken fun _ hf => hf.2

/-- The test of a loop with a counter compares what the slot has. -/
theorem moves_test {d d₁ d' : Draft} {var : Text} {last : Number} {r c : Register}
    (hload : Lowering.define (.load var) d = (.ok r, d₁))
    (htest : Lowering.define (.compare .ole (.register r) (.constant last)) d₁ = (.ok c, d'))
    (extend : d'.Extends F) (x : Number) :
    Moves F ⟨d, S, SlotHas var x⟩
      ⟨d', S, fun f => SlotHas var x f ∧ f.truth? c = some (decide (x ≤ last))⟩ := by
  obtain ⟨rfl, emits, _⟩ := Lowering.emits_define hload
  obtain ⟨code, emits', _, _, decides⟩ := Lowering.emits_compare htest
  refine .code fresh (emits.trans emits') extend fun f slot => ?_
  have loaded : Computes d.registers _ _ f x := computes_define (Operation.perform_load slot)
  obtain ⟨f', ran, agrees, decided⟩ := loaded.trans emits.registers fun f' _ value =>
    decides f' x last value rfl
  refine ⟨f', ran, agrees, ?_, decided⟩
  rw [SlotHas, agrees.slots]
  exact slot

/-- At the end of a round the step is added to what the slot has. -/
theorem moves_next {d d₁ d' : Draft} {var : Text} {step : Number} {r : Register} {next : Operand}
    (hload : Lowering.define (.load var) d = (.ok r, d₁))
    (hadd : Lowering.arithmetic .fadd (.register r) (.constant step) d₁ = (.ok next, d'))
    (extend : d'.Extends F) (x : Number) :
    Moves F ⟨d, S, SlotHas var x⟩ ⟨d', S, fun f => f.double? next = some (x + step)⟩ := by
  obtain ⟨rfl, emits, _⟩ := Lowering.emits_define hload
  obtain ⟨code, emits', _, computes⟩ := Lowering.emits_arithmetic hadd
  refine .code fresh (emits.trans emits') extend fun f slot => ?_
  have loaded : Computes d.registers _ _ f x := computes_define (Operation.perform_load slot)
  exact loaded.trans emits.registers fun f' _ value => computes f' x step value rfl

/-- The code of a loop counts in the slot of its variable, which is stale after the loop. In the
body of the loop the variable has the counter, and the body leaves it there. -/
theorem simulated_forLoop {var : Text} {first last step : Number} {body : List Stmt}
    (unbound : ∀ a ∈ partsOfBlock body, var ∉ a.assigned)
    (inner : BlockSimulated F host turns
      ((Stmt.forLoop loc var first last step body).staleWithin S) body) :
    (Stmt.forLoop loc var first last step body).Simulated F host turns S := by
  intro d d' h extend
  have extend₀ := (Stmt.grows_lower h).extend.trans extend
  rw [Stmt.exec, Stmt.trace, Stmt.rounds]
  refine .checked fresh host loc extend₀ ?_
  obtain ⟨_, c, _, next, i, k, d₁, d₂, d₃, d₄, d₅, d₆, d₇, d₈, d₉, d₁₀, hfirst, reserved, opened,
    hload, htest, middle, hbody, hagain, hadd, hnext, closed, given⟩ := Stmt.lower_forLoop h
  obtain ⟨_, added, _⟩ := Lowering.emits_arithmetic hadd
  have extend₁₀ := closed.extend.trans extend
  have extend₉ := (Lowering.assign_eq_ok hnext).1.extend.trans extend₁₀
  have extend₇ := (Lowering.grows_define hagain).extend.trans (added.extend.trans extend₉)
  have extend₆ := (grows_lowerBlock hbody).extend.trans extend₇
  have extend₅ := middle.extend.trans extend₆
  have extend₃ := (Lowering.grows_define hload).extend.trans
    ((Lowering.grows_define htest).extend.trans extend₅)
  have extend₂ := opened.extend.trans extend₃
  -- Around the loop `A` is stale, and in its body `W`.
  have before : S ⊆ (Stmt.forLoop loc var first last step body).staleAfter S :=
    List.subset_append_left S _
  have stale : var ∈ (Stmt.forLoop loc var first last step body).staleAfter S := by
    simp [Stmt.staleAfter_forLoop]
  have within := Stmt.filter_staleAfter_forLoop S loc var first last step body
  have after := Stmt.staleWithin_forLoop_subset S loc var first last step body
  have current := Stmt.not_mem_staleWithin_forLoop S loc first last step unbound
  generalize (Stmt.forLoop loc var first last step body).staleAfter S = A
    at before stale within after ⊢
  generalize (Stmt.forLoop loc var first last step body).staleWithin S = W
    at inner within after current
  have enter : Moves F ⟨d, S, Any⟩ ⟨d₃, A, SlotHas var first⟩ :=
    ((Moves.refl fresh extend₀).mono before).trans
      ((Moves.assign fresh hfirst (reserved.extend.trans extend₂) stale fun _ _ => rfl).trans
        ((Moves.reserve fresh reserved extend₂).trans
          (.jump fresh opened extend₃ extend₃ opened.label opened.code rfl)))
  refine .before enter (.count (fun x more => ?_) (fun x notMore => ?_) turns first)
  · refine .checked fresh host loc extend₃ ?_
    have test : Moves F ⟨d₃, W, SlotHas var x⟩
        ⟨d₅, W, fun f => SlotHas var x f ∧ f.truth? c = some true⟩ :=
      decide_eq_true more ▸ moves_test fresh hload htest extend₅ x
    have round := Follows.inRound fresh middle extend₆ extend₆ middle.label middle.code
      ((inner hbody extend₇).weaken fun _ (_ : SlotHas var x _) => trivial)
    have bound := within ▸ Follows.binding (x := x) fresh loc extend₃
    have whole := (bound.bind fun _ => .before test round).andSlot current (find?_of_bound unbound)
    rw [← given]
    refine (whole.mono after).andMove fun _ => ?_
    exact (moves_next fresh hagain hadd extend₉ x).trans
      ((Moves.assign fresh hnext extend₁₀ stale fun _ value => value).trans
        (.jump fresh closed extend extend₃ opened.label opened.code rfl))
  · have test : Moves F ⟨d₃, A, SlotHas var x⟩
        ⟨d₅, A, fun f => SlotHas var x f ∧ f.truth? c = some false⟩ :=
      decide_eq_false notMore ▸ moves_test fresh hload htest extend₅ x
    exact (test.trans (.branch fresh middle extend₆ extend closed.label closed.code
      (closed.label ▸ rfl))).any

end Statements

-- A statement is simulated if all its parts are; what is inside it comes first in the recursion.
mutual

theorem Stmt.simulated {F : Draft} (fresh : Fresh [] F) (host : Host) (turns : Nat) {S : List Text}
    {s : Stmt} (plain : ∀ a ∈ s.parts, ∀ e ∈ a.operands, e.IsPlain)
    (current : s.readsCurrent S = true) : s.Simulated F host turns S := by
  rw [Stmt.parts.eq_def] at plain
  obtain ⟨self, inner⟩ := List.forall_mem_cons.1 plain
  rw [Stmt.readsCurrent.eq_def, Bool.and_eq_true, decide_eq_true_eq] at current
  obtain ⟨avoids, within⟩ := current
  match s with
  | .assign _ _ _ =>
    exact simulated_assign fresh (self _ List.mem_cons_self) (avoids _ List.mem_cons_self)
  | .print _ _ => exact simulated_print fresh self avoids
  | .branch _ _ yes no =>
    obtain ⟨first, second⟩ := List.forall_mem_append.1 inner
    obtain ⟨inYes, inNo⟩ := Bool.and_eq_true_iff.1 within
    exact simulated_branch fresh (self _ List.mem_cons_self) (avoids _ List.mem_cons_self)
      (simulated_block fresh host turns first inYes) (simulated_else fresh host turns second inNo)
  | .select loc subject cases otherwise =>
    obtain ⟨bodies, rest⟩ := List.forall_mem_append.1 inner
    obtain ⟨inCases, inRest⟩ := Bool.and_eq_true_iff.1 within
    have labels : ∀ c ∈ cases, c.1.IsPlain ∧ c.1.Avoids S := by
      intro c hc
      have mem : c.1 ∈ (Stmt.select loc subject cases otherwise).operands :=
        List.mem_cons_of_mem _ (List.mem_map_of_mem hc)
      exact ⟨self c.1 mem, avoids c.1 mem⟩
    have more : S ++ counters (partsOfCases cases) ⊆
        (Stmt.select loc subject cases otherwise).staleAfter S :=
      append_counters_subset fun s hs => by simp [Stmt.parts, hs]
    exact simulated_select fresh (self _ List.mem_cons_self) (avoids _ List.mem_cons_self)
      (simulated_cases fresh host turns labels bodies inCases more)
      (simulated_block fresh host turns rest inRest)
  | .whileLoop _ _ body =>
    exact simulated_whileLoop fresh (self _ List.mem_cons_self) (avoids _ List.mem_cons_self)
      (simulated_block fresh host turns inner within)
  | .repeatLoop _ body _ =>
    exact simulated_repeatLoop fresh (self _ List.mem_cons_self) (avoids _ List.mem_cons_self)
      (simulated_block fresh host turns inner within)
  | .forLoop _ _ _ _ _ _ =>
    obtain ⟨unbound, inBody⟩ := Bool.and_eq_true_iff.1 within
    exact simulated_forLoop fresh (of_decide_eq_true unbound)
      (simulated_block fresh host turns inner inBody)
  | .dimension _ _ _ | .assignElement _ _ _ _ | .read _ _ =>
    intro d d' h
    rw [Stmt.lower] at h
    cases h

theorem simulated_block {F : Draft} (fresh : Fresh [] F) (host : Host) (turns : Nat)
    {S : List Text} {ss : List Stmt} (plain : ∀ a ∈ partsOfBlock ss, ∀ e ∈ a.operands, e.IsPlain)
    (current : blockReadsCurrent S ss = true) : BlockSimulated F host turns S ss := by
  intro d d' h extend
  match ss with
  | [] =>
    rw [lowerBlock] at h
    cases h
    rw [execBlock, traceBlock, roundsOfBlock]
    exact .nothing () ((Moves.refl fresh extend).mono (List.subset_append_left S _))
  | s :: rest =>
    rw [lowerBlock] at h
    obtain ⟨_, d₁, hfirst, hrest⟩ := Action.bind_eq_ok.1 h
    rw [partsOfBlock] at plain
    obtain ⟨first, later⟩ := List.forall_mem_append.1 plain
    rw [blockReadsCurrent] at current
    obtain ⟨own, others⟩ := Bool.and_eq_true_iff.1 current
    have extend₁ := (grows_lowerBlock hrest).extend.trans extend
    rw [execBlock, traceBlock, roundsOfBlock, ← Stmt.labels_lower hfirst]
    exact (Stmt.simulated fresh host turns first own hfirst extend₁).bind fun _ =>
      (simulated_block fresh host turns later others hrest extend).mono
        (append_counters_cons_subset S s rest)

theorem simulated_else {F : Draft} (fresh : Fresh [] F) (host : Host) (turns : Nat)
    {S : List Text} {no : Option (List Stmt)}
    (plain : ∀ a ∈ partsOfElse no, ∀ e ∈ a.operands, e.IsPlain)
    (current : elseReadsCurrent S no = true) : ElseSimulated F host turns S no := by
  intro d d' h extend
  match no with
  | none =>
    rw [lowerElse] at h
    cases h
    rw [execElse, traceElse, roundsOfElse]
    exact .nothing () ((Moves.refl fresh extend).mono (List.subset_append_left S _))
  | some body =>
    rw [lowerElse] at h
    rw [elseReadsCurrent] at current
    rw [execElse, traceElse, roundsOfElse]
    exact simulated_block fresh host turns plain current h extend

theorem simulated_cases {F : Draft} (fresh : Fresh [] F) (host : Host) (turns : Nat)
    {S S' : List Text} {cases : List (Expr × List Stmt)}
    (labels : ∀ c ∈ cases, c.1.IsPlain ∧ c.1.Avoids S)
    (bodies : ∀ a ∈ partsOfCases cases, ∀ e ∈ a.operands, e.IsPlain)
    (current : casesReadCurrent S cases = true) (more : S ++ counters (partsOfCases cases) ⊆ S') :
    CasesSimulated F host turns S S' cases := by
  match cases with
  | [] =>
    intro d d₁ d' subject endLabel w other during rounds h _ _ _ _ _ _ hother
    rw [lowerCases] at h
    cases h
    rw [execCases, traceCases, roundsOfCases]
    exact hother.weaken fun _ _ => trivial
  | (label, body) :: rest =>
    rw [partsOfCases] at bodies more
    obtain ⟨first, later⟩ := List.forall_mem_append.1 bodies
    obtain ⟨⟨plain, avoids⟩, others⟩ := List.forall_mem_cons.1 labels
    rw [casesReadCurrent] at current
    obtain ⟨inBody, inRest⟩ := Bool.and_eq_true_iff.1 current
    have here := List.Subset.trans (append_counters_subset (List.subset_append_left _ _)) more
    have there := List.Subset.trans (append_counters_subset (List.subset_append_right _ _)) more
    exact casesSimulated_cons fresh plain avoids (simulated_block fresh host turns first inBody)
      here (simulated_cases fresh host turns others later inRest there)

end

/-- Where no loop counts, nothing that a block reads is stale. -/
theorem blockSimulated {F : Draft} (fresh : Fresh [] F) (host : Host) (turns : Nat)
    {ss : List Stmt} (plain : ∀ a ∈ partsOfBlock ss, a.IsPlain) {d d' : Draft}
    (h : lowerBlock ss d = (.ok (), d')) (extend : d'.Extends F) {m m' : Machine}
    (ran : execBlock host turns ss m = (.ok (), m'))
    (kinds : SameKinds (Trace.comparisons (traceBlock host turns ss m))) {f : Frame}
    {t : List Observation} (hf : Any f) (tracks : Tracks F m f t) :
    ∃ f', Goes F d f d' f' ∧ Any f' ∧ Tracks F m' f' (t ++ traceBlock host turns ss m) := by
  have uncounted : counters (partsOfBlock ss) = [] := by
    refine List.filterMap_eq_nil_iff.2 fun s hs => ?_
    split
    · exact absurd trivial (plain _ hs).1
    · rfl
  have simulated := simulated_block fresh host turns (fun a ha => (plain a ha).2)
    (readsCurrent_block_of_counters uncounted)
  obtain ⟨f', takes, hf', tracks'⟩ := simulated h extend ran kinds hf tracks
  rw [uncounted] at tracks'
  exact ⟨f', takes.goes, hf', tracks'⟩

end Pseudocode

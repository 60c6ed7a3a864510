import Pseudocode.Proofs.Llvm.Expressions
import Pseudocode.Proofs.Llvm.Rounds

/-!
# The blocks of statements

What the lowering of each form of statement does, as the steps that it takes from draft to draft. In
whatever way blocks are nested, a draft grows: nothing is taken back, and every label that is
reserved within a statement is placed within it. How many labels are given out depends on the text
of the statement only.
-/

namespace Pseudocode

open Llvm Draft

variable {d d' : Draft}

namespace Llvm.Lowering

/-- A condition adds code that decides whether its value counts as true. -/
theorem emits_condition {e : Expr} {r : Register} (h : condition e d = (.ok r, d')) :
    ∃ code, d.Emits code d' ∧
      ∀ {draws store stale n w n' f}, e.IsPlain → e.Avoids stale →
        e.eval draws store n = (.ok w, n') → SameKinds (e.comparisons draws store n) →
        f.Holds store stale → Decides d.registers code r f w.truthy := by
  obtain ⟨v, m, hvalue, htruth⟩ := Action.bind_eq_ok.1 h
  obtain ⟨code, emits, _, computes⟩ := Expr.emits_lower hvalue
  obtain ⟨code', emits', _, _, decides⟩ := emits_compare htruth
  refine ⟨_, emits.trans emits', fun plain avoids ran kinds holds => ?_⟩
  obtain ⟨x, hx, value⟩ := computes plain avoids ran kinds holds
  rw [← Value.holds_one_zero hx]
  exact value.trans emits.registers fun f' _ hv => decides f' x 0 hv rfl

/-- An assignment adds a store to a slot that is then there. -/
theorem assign_eq_ok {name : Text} {v : Operand} (h : assign name v d = (.ok (), d')) :
    d.Grows d' ∧ name ∈ d'.slots ∧ d'.label = d.label ∧ d'.code = d.code ++ [.store v name] ∧
      d'.labels = d.labels := by
  obtain ⟨_, m, hdeclare, hemit⟩ := Action.bind_eq_ok.1 h
  cases hdeclare
  cases hemit
  have mem : ∀ x, x ∈ d.slots ∨ x = name → x ∈ addNew d.slots name := by
    intro x hx
    rw [addNew]
    split
    · rename_i there
      rcases hx with hx | rfl
      · exact hx
      · simpa using there
    · rcases hx with hx | rfl
      · exact List.mem_append_left _ hx
      · exact List.mem_append_right _ (List.mem_singleton_self _)
  refine ⟨⟨⟨Nat.le_refl _, fun x hx => mem x (.inl hx), fun _ h => h,
    .inl ⟨rfl, List.prefix_append _ _⟩⟩, ?_⟩, mem name (.inr rfl), rfl, rfl, rfl⟩
  exact fun fresh => ⟨fresh.distinct, fresh.bounded⟩

theorem emits_print {what : Printed} (h : print what d = (.ok (), d')) :
    ∃ r, d.Emits [.define r (.print what)] d' := by
  obtain ⟨_, m, hstrings, h⟩ := Action.bind_eq_ok.1 h
  cases hstrings
  obtain ⟨r, m, hdefine, hret⟩ := Action.bind_eq_ok.1 h
  cases hret
  obtain ⟨rfl, emits, _⟩ := emits_define hdefine
  exact ⟨_, { emits with }⟩

/-- Code makes some calls of the printing routine and leaves the slots alone. -/
def Prints (code : List Instr) (f : Frame) (outputs : List Output) : Prop :=
  ∃ f', execCode code f = some f' ∧ f'.slots = f.slots ∧ f'.printed = f.printed ++ outputs

theorem prints_define {what : Printed} {f : Frame} {o : Output} (h : what.output? f = some o)
    (r : Register) : Prints [.define r (.print what)] f [o] := by
  refine ⟨{ f.define r .status with printed := f.printed ++ [o] }, ?_, rfl, rfl⟩
  simp [execCode, Instr.exec, Operation.perform, h]

end Llvm.Lowering

/-- What the code hands to the printing routine for a value. -/
def Value.output? : Value → Option Output
  | .text t => some (.string t)
  | v => v.erased?.map .number

theorem Value.output?_of_erased? {v : Value} {x : Number} (h : v.erased? = some x) :
    v.output? = some (.number x) := by
  obtain rfl | ⟨truth, rfl, rfl⟩ := erased?_eq_some h
  · rfl
  · rfl

namespace Llvm.Lowering

theorem emits_printedValue {e : Expr}
    (h : (do let v ← e.lower; print (.number v) : Lowering Unit) d = (.ok (), d')) :
    ∃ code, d.Emits code d' ∧
      ∀ {draws store stale n w n' f}, e.IsPlain → e.Avoids stale →
        e.eval draws store n = (.ok w, n') → SameKinds (e.comparisons draws store n) →
        f.Holds store stale → ∃ o, w.output? = some o ∧ Prints code f [o] := by
  obtain ⟨v, m, hvalue, hprint⟩ := Action.bind_eq_ok.1 h
  obtain ⟨code, emits, _, computes⟩ := Expr.emits_lower hvalue
  obtain ⟨r, emits'⟩ := emits_print hprint
  refine ⟨_, emits.trans emits', fun plain avoids ran kinds holds => ?_⟩
  obtain ⟨x, hx, f', codeRan, agrees, value⟩ := computes plain avoids ran kinds holds
  have given : (Printed.number v).output? f' = some (.number x) := by simp [Printed.output?, value]
  obtain ⟨f'', printRan, slots, printed⟩ := prints_define given r
  refine ⟨_, Value.output?_of_erased? hx, f'', execCode_append codeRan printRan, ?_, ?_⟩
  · rw [slots, agrees.slots]
  · rw [printed, agrees.printed]

/-- An expression of an `Escribir` adds code that prints its value. -/
theorem emits_printed {e : Expr} (h : printed e d = (.ok (), d')) :
    ∃ code, d.Emits code d' ∧
      ∀ {draws store stale n w n' f}, e.IsPlain → e.Avoids stale →
        e.eval draws store n = (.ok w, n') → SameKinds (e.comparisons draws store n) →
        f.Holds store stale → ∃ o, w.output? = some o ∧ Prints code f [o] := by
  cases e with
  | text loc t =>
    obtain ⟨r, emits⟩ := emits_print h
    refine ⟨_, emits, fun _ _ ran _ _ => ?_⟩
    rw [Expr.eval] at ran
    cases ran
    exact ⟨_, rfl, prints_define rfl r⟩
  | _ => exact emits_printedValue h

/-- The expressions of an `Escribir` add code that prints their values. -/
theorem emits_printAll {exprs : List Expr} (h : printAll exprs d = (.ok (), d')) :
    ∃ code, d.Emits code d' ∧
      ∀ {draws store stale n ws n' f}, (∀ e ∈ exprs, e.IsPlain) → (∀ e ∈ exprs, e.Avoids stale) →
        evalAll draws store exprs n = (.ok ws, n') →
        SameKinds (comparisonsOfAll draws store exprs n) → f.Holds store stale →
        ∃ os, ws.mapM Value.output? = some os ∧ Prints code f os := by
  induction exprs generalizing d with
  | nil =>
    cases h
    refine ⟨[], .refl _, fun {_ _ _ _ _ _ f} _ _ ran _ _ => ?_⟩
    rw [evalAll] at ran
    cases ran
    exact ⟨[], rfl, f, rfl, rfl, by simp⟩
  | cons e rest ih =>
    obtain ⟨_, d₁, hfirst, hrest⟩ := Action.bind_eq_ok.1 h
    obtain ⟨code₁, emits₁, first⟩ := emits_printed hfirst
    obtain ⟨code₂, emits₂, later⟩ := ih hrest
    refine ⟨_, emits₁.trans emits₂, fun plain avoids ran kinds holds => ?_⟩
    rw [evalAll] at ran
    obtain ⟨w, n₁, ran₁, ran⟩ := Action.bind_eq_ok.1 ran
    obtain ⟨ws, n₂, ran₂, hret⟩ := Action.bind_eq_ok.1 ran
    cases hret
    rw [comparisonsOfAll, Action.observe_of_ok ran₁] at kinds
    obtain ⟨kinds₁, kinds₂⟩ := SameKinds.append.1 kinds
    obtain ⟨plain₁, plain₂⟩ := List.forall_mem_cons.1 plain
    obtain ⟨avoids₁, avoids₂⟩ := List.forall_mem_cons.1 avoids
    obtain ⟨o, ho, f₁, codeRan₁, slots₁, printed₁⟩ := first plain₁ avoids₁ ran₁ kinds₁ holds
    obtain ⟨os, hos, f₂, codeRan₂, slots₂, printed₂⟩ :=
      later plain₂ avoids₂ ran₂ kinds₂ (holds.of_slots slots₁)
    refine ⟨o :: os, by simp [ho, hos], f₂, execCode_append codeRan₁ codeRan₂, ?_, ?_⟩
    · exact slots₂.trans slots₁
    · rw [printed₂, printed₁, List.append_assoc, List.singleton_append]

end Llvm.Lowering

theorem Llvm.Lowering.labels_condition {e : Expr} {r : Register}
    (h : condition e d = (.ok r, d')) : d'.labels = d.labels := by
  obtain ⟨_, emits, _⟩ := emits_condition h
  exact emits.labels

theorem Llvm.Lowering.labels_define {op : Operation} {r : Register}
    (h : define op d = (.ok r, d')) : d'.labels = d.labels :=
  (emits_define h).2.1.labels

theorem Llvm.Lowering.labels_assign {name : Text} {v : Operand}
    (h : assign name v d = (.ok (), d')) : d'.labels = d.labels :=
  (assign_eq_ok h).2.2.2.2

theorem Expr.labels_lower {e : Expr} {v : Operand} (h : e.lower d = (.ok v, d')) :
    d'.labels = d.labels := by
  obtain ⟨_, emits, _⟩ := emits_lower h
  exact emits.labels

namespace Stmt

theorem lower_assign {loc : Option Location} {name : Text} {e : Expr}
    (h : (assign loc name e).lower d = (.ok (), d')) :
    ∃ v d₁, e.lower d = (.ok v, d₁) ∧ Lowering.assign name v d₁ = (.ok (), d') := by
  rw [lower] at h
  exact Action.bind_eq_ok.1 h

theorem lower_branch {loc : Option Location} {cond : Expr} {yes : List Stmt}
    {no : Option (List Stmt)} (h : (branch loc cond yes no).lower d = (.ok (), d')) :
    ∃ c i j k d₁ d₂ d₃ d₄ d₅ d₆,
      Lowering.condition cond d = (.ok c, d₁) ∧
      d₁.Reserves [.numbered .ifEnd k, .numbered .ifElse j, .numbered .ifThen i] d₂ ∧
      d₂.Closes (.branch c (.numbered .ifThen i) (.numbered .ifElse j)) (.numbered .ifThen i) d₃ ∧
      lowerBlock yes d₃ = (.ok (), d₄) ∧
      d₄.Closes (.jump (.numbered .ifEnd k)) (.numbered .ifElse j) d₅ ∧
      lowerElse no d₅ = (.ok (), d₆) ∧
      d₆.Closes (.jump (.numbered .ifEnd k)) (.numbered .ifEnd k) d' ∧
      d₃.labels = d.labels + 3 := by
  rw [lower] at h
  obtain ⟨c, d₁, hcond, h⟩ := Action.bind_eq_ok.1 h
  obtain ⟨thenLabel, a, hthen, h⟩ := Action.bind_eq_ok.1 h
  obtain ⟨elseLabel, b, helse, h⟩ := Action.bind_eq_ok.1 h
  obtain ⟨endLabel, d₂, hend, h⟩ := Action.bind_eq_ok.1 h
  obtain ⟨_, d₃, hopen, h⟩ := Action.bind_eq_ok.1 h
  obtain ⟨_, d₄, hyes, h⟩ := Action.bind_eq_ok.1 h
  obtain ⟨_, d₅, hmiddle, h⟩ := Action.bind_eq_ok.1 h
  obtain ⟨_, d₆, hno, hclose⟩ := Action.bind_eq_ok.1 h
  obtain ⟨rfl, first⟩ := Lowering.reserves_newLabel hthen
  obtain ⟨rfl, second⟩ := Lowering.reserves_newLabel helse
  obtain ⟨rfl, third⟩ := Lowering.reserves_newLabel hend
  have reserved := first.trans (second.trans third)
  have opened := Lowering.closes_finish hopen
  refine ⟨c, _, _, _, d₁, d₂, d₃, d₄, d₅, d₆, hcond, reserved, opened, hyes,
    Lowering.closes_finish hmiddle, hno, Lowering.closes_finish hclose, ?_⟩
  rw [opened.count, reserved.count, Lowering.labels_condition hcond]
  rfl

theorem lower_select {loc : Option Location} {subject : Expr} {cases : List (Expr × List Stmt)}
    {otherwise : List Stmt} (h : (select loc subject cases otherwise).lower d = (.ok (), d')) :
    ∃ v k d₁ d₂ d₃ d₄,
      subject.lower d = (.ok v, d₁) ∧ d₁.Reserves [.numbered .switchEnd k] d₂ ∧
      lowerCases v (.numbered .switchEnd k) cases d₂ = (.ok (), d₃) ∧
      lowerBlock otherwise d₃ = (.ok (), d₄) ∧
      d₄.Closes (.jump (.numbered .switchEnd k)) (.numbered .switchEnd k) d' ∧
      d₂.labels = d.labels + 1 := by
  rw [lower] at h
  obtain ⟨v, d₁, hsubject, h⟩ := Action.bind_eq_ok.1 h
  obtain ⟨endLabel, d₂, hend, h⟩ := Action.bind_eq_ok.1 h
  obtain ⟨_, d₃, hcases, h⟩ := Action.bind_eq_ok.1 h
  obtain ⟨_, d₄, hother, hclose⟩ := Action.bind_eq_ok.1 h
  obtain ⟨rfl, reserved⟩ := Lowering.reserves_newLabel hend
  refine ⟨v, _, d₁, d₂, d₃, d₄, hsubject, reserved, hcases, hother, Lowering.closes_finish hclose,
    ?_⟩
  rw [reserved.count, Expr.labels_lower hsubject]
  rfl

theorem lower_whileLoop {loc : Option Location} {cond : Expr} {body : List Stmt}
    (h : (whileLoop loc cond body).lower d = (.ok (), d')) :
    ∃ c i j k d₁ d₂ d₃ d₄ d₅,
      d.Reserves [.numbered .whileEnd k, .numbered .whileBody j, .numbered .whileCond i] d₁ ∧
      d₁.Closes (.jump (.numbered .whileCond i)) (.numbered .whileCond i) d₂ ∧
      Lowering.condition cond d₂ = (.ok c, d₃) ∧
      d₃.Closes (.branch c (.numbered .whileBody j) (.numbered .whileEnd k))
        (.numbered .whileBody j) d₄ ∧
      lowerBlock body d₄ = (.ok (), d₅) ∧
      d₅.Closes (.jump (.numbered .whileCond i)) (.numbered .whileEnd k) d' ∧
      d₄.labels = d.labels + 3 := by
  rw [lower] at h
  obtain ⟨condLabel, a, hcond, h⟩ := Action.bind_eq_ok.1 h
  obtain ⟨bodyLabel, b, hbody, h⟩ := Action.bind_eq_ok.1 h
  obtain ⟨endLabel, d₁, hend, h⟩ := Action.bind_eq_ok.1 h
  obtain ⟨_, d₂, hopen, h⟩ := Action.bind_eq_ok.1 h
  obtain ⟨c, d₃, htest, h⟩ := Action.bind_eq_ok.1 h
  obtain ⟨_, d₄, hmiddle, h⟩ := Action.bind_eq_ok.1 h
  obtain ⟨_, d₅, hblock, hclose⟩ := Action.bind_eq_ok.1 h
  obtain ⟨rfl, first⟩ := Lowering.reserves_newLabel hcond
  obtain ⟨rfl, second⟩ := Lowering.reserves_newLabel hbody
  obtain ⟨rfl, third⟩ := Lowering.reserves_newLabel hend
  have reserved := first.trans (second.trans third)
  have opened := Lowering.closes_finish hopen
  have middle := Lowering.closes_finish hmiddle
  refine ⟨c, _, _, _, d₁, d₂, d₃, d₄, d₅, reserved, opened, htest, middle, hblock,
    Lowering.closes_finish hclose, ?_⟩
  rw [middle.count, Lowering.labels_condition htest, opened.count, reserved.count]
  rfl

theorem lower_repeatLoop {loc : Option Location} {body : List Stmt} {cond : Expr}
    (h : (repeatLoop loc body cond).lower d = (.ok (), d')) :
    ∃ c j k d₁ d₂ d₃ d₄,
      d.Reserves [.numbered .repeatEnd k, .numbered .repeatBody j] d₁ ∧
      d₁.Closes (.jump (.numbered .repeatBody j)) (.numbered .repeatBody j) d₂ ∧
      lowerBlock body d₂ = (.ok (), d₃) ∧
      Lowering.condition cond d₃ = (.ok c, d₄) ∧
      d₄.Closes (.branch c (.numbered .repeatEnd k) (.numbered .repeatBody j))
        (.numbered .repeatEnd k) d' ∧
      d₂.labels = d.labels + 2 := by
  rw [lower] at h
  obtain ⟨bodyLabel, a, hbody, h⟩ := Action.bind_eq_ok.1 h
  obtain ⟨endLabel, d₁, hend, h⟩ := Action.bind_eq_ok.1 h
  obtain ⟨_, d₂, hopen, h⟩ := Action.bind_eq_ok.1 h
  obtain ⟨_, d₃, hblock, h⟩ := Action.bind_eq_ok.1 h
  obtain ⟨c, d₄, htest, hclose⟩ := Action.bind_eq_ok.1 h
  obtain ⟨rfl, first⟩ := Lowering.reserves_newLabel hbody
  obtain ⟨rfl, second⟩ := Lowering.reserves_newLabel hend
  have reserved := first.trans second
  have opened := Lowering.closes_finish hopen
  refine ⟨c, _, _, d₁, d₂, d₃, d₄, reserved, opened, hblock, htest, Lowering.closes_finish hclose,
    ?_⟩
  rw [opened.count, reserved.count]
  rfl

theorem lower_forLoop {loc : Option Location} {var : Text} {first last step : Number}
    {body : List Stmt} (h : (forLoop loc var first last step body).lower d = (.ok (), d')) :
    ∃ counter c counter' next i k d₁ d₂ d₃ d₄ d₅ d₆ d₇ d₈ d₉ d₁₀,
      Lowering.assign var (.constant first) d = (.ok (), d₁) ∧
      d₁.Reserves [.numbered .forEnd k, .numbered .forBody (d.labels + 1), .numbered .forCond i]
        d₂ ∧
      d₂.Closes (.jump (.numbered .forCond i)) (.numbered .forCond i) d₃ ∧
      Lowering.define (.load var) d₃ = (.ok counter, d₄) ∧
      Lowering.define (.compare .ole (.register counter) (.constant last)) d₄ = (.ok c, d₅) ∧
      d₅.Closes (.branch c (.numbered .forBody (d.labels + 1)) (.numbered .forEnd k))
        (.numbered .forBody (d.labels + 1)) d₆ ∧
      lowerBlock body d₆ = (.ok (), d₇) ∧
      Lowering.define (.load var) d₇ = (.ok counter', d₈) ∧
      Lowering.arithmetic .fadd (.register counter') (.constant step) d₈ = (.ok next, d₉) ∧
      Lowering.assign var next d₉ = (.ok (), d₁₀) ∧
      d₁₀.Closes (.jump (.numbered .forCond i)) (.numbered .forEnd k) d' ∧
      d₆.labels = d.labels + 3 := by
  rw [lower] at h
  obtain ⟨_, d₁, hfirst, h⟩ := Action.bind_eq_ok.1 h
  obtain ⟨condLabel, a, hcond, h⟩ := Action.bind_eq_ok.1 h
  obtain ⟨bodyLabel, b, hbody, h⟩ := Action.bind_eq_ok.1 h
  obtain ⟨endLabel, d₂, hend, h⟩ := Action.bind_eq_ok.1 h
  obtain ⟨_, d₃, hopen, h⟩ := Action.bind_eq_ok.1 h
  obtain ⟨counter, d₄, hload, h⟩ := Action.bind_eq_ok.1 h
  obtain ⟨c, d₅, htest, h⟩ := Action.bind_eq_ok.1 h
  obtain ⟨_, d₆, hmiddle, h⟩ := Action.bind_eq_ok.1 h
  obtain ⟨_, d₇, hblock, h⟩ := Action.bind_eq_ok.1 h
  obtain ⟨counter', d₈, hagain, h⟩ := Action.bind_eq_ok.1 h
  obtain ⟨next, d₉, hadd, h⟩ := Action.bind_eq_ok.1 h
  obtain ⟨_, d₁₀, hnext, hclose⟩ := Action.bind_eq_ok.1 h
  obtain ⟨rfl, one⟩ := Lowering.reserves_newLabel hcond
  obtain ⟨named, two⟩ := Lowering.reserves_newLabel hbody
  obtain ⟨rfl, three⟩ := Lowering.reserves_newLabel hend
  rw [one.count, Lowering.labels_assign hfirst] at named
  subst named
  have reserved := one.trans (two.trans three)
  have opened := Lowering.closes_finish hopen
  have middle := Lowering.closes_finish hmiddle
  refine ⟨counter, c, counter', next, _, _, d₁, d₂, d₃, d₄, d₅, d₆, d₇, d₈, d₉, d₁₀, hfirst,
    reserved, opened, hload, htest, middle, hblock, hagain, hadd, hnext,
    Lowering.closes_finish hclose, ?_⟩
  rw [middle.count, Lowering.labels_define htest, Lowering.labels_define hload, opened.count,
    reserved.count, Lowering.labels_assign hfirst]
  rfl

end Stmt

theorem lowerCases_cons {subject : Operand} {endLabel : Label} {label : Expr} {body : List Stmt}
    {rest : List (Expr × List Stmt)}
    (h : lowerCases subject endLabel ((label, body) :: rest) d = (.ok (), d')) :
    ∃ v c j k d₁ d₂ d₃ d₄ d₅ d₆,
      label.lower d = (.ok v, d₁) ∧
      d₁.Reserves [.numbered .switchNext k, .numbered .switchCase j] d₂ ∧
      Lowering.define (.compare .oeq subject v) d₂ = (.ok c, d₃) ∧
      d₃.Closes (.branch c (.numbered .switchCase j) (.numbered .switchNext k))
        (.numbered .switchCase j) d₄ ∧
      lowerBlock body d₄ = (.ok (), d₅) ∧
      d₅.Closes (.jump endLabel) (.numbered .switchNext k) d₆ ∧
      lowerCases subject endLabel rest d₆ = (.ok (), d') ∧
      d₄.labels = d.labels + 2 := by
  rw [lowerCases] at h
  obtain ⟨v, d₁, hlabel, h⟩ := Action.bind_eq_ok.1 h
  obtain ⟨caseLabel, a, hcase, h⟩ := Action.bind_eq_ok.1 h
  obtain ⟨nextLabel, d₂, hnext, h⟩ := Action.bind_eq_ok.1 h
  obtain ⟨c, d₃, hcompare, h⟩ := Action.bind_eq_ok.1 h
  obtain ⟨_, d₄, hopen, h⟩ := Action.bind_eq_ok.1 h
  obtain ⟨_, d₅, hblock, h⟩ := Action.bind_eq_ok.1 h
  obtain ⟨_, d₆, hclose, hrest⟩ := Action.bind_eq_ok.1 h
  obtain ⟨rfl, first⟩ := Lowering.reserves_newLabel hcase
  obtain ⟨rfl, second⟩ := Lowering.reserves_newLabel hnext
  have reserved := first.trans second
  have opened := Lowering.closes_finish hopen
  refine ⟨v, c, _, _, d₁, d₂, d₃, d₄, d₅, d₆, hlabel, reserved, hcompare, opened, hblock,
    Lowering.closes_finish hclose, hrest, ?_⟩
  rw [opened.count, Lowering.labels_define hcompare, reserved.count, Expr.labels_lower hlabel]
  rfl

theorem Llvm.Lowering.grows_condition {e : Expr} {r : Register}
    (h : condition e d = (.ok r, d')) : d.Grows d' := by
  obtain ⟨_, emits, _⟩ := emits_condition h
  exact emits.grows

theorem Llvm.Lowering.grows_define {op : Operation} {r : Register}
    (h : define op d = (.ok r, d')) : d.Grows d' :=
  (emits_define h).2.1.grows

theorem Expr.grows_lower {e : Expr} {v : Operand} (h : e.lower d = (.ok v, d')) : d.Grows d' := by
  obtain ⟨_, emits, _⟩ := emits_lower h
  exact emits.grows

-- Each reserved label is placed by one of the blocks, in the order of the text.
mutual

theorem Stmt.grows_lower {s : Stmt} {d d' : Draft} (h : s.lower d = (.ok (), d')) : d.Grows d' := by
  match s with
  | .assign loc name e =>
    obtain ⟨v, d₁, hvalue, hassign⟩ := Stmt.lower_assign h
    exact (Expr.grows_lower hvalue).trans (Lowering.assign_eq_ok hassign).1
  | .print loc exprs =>
    rw [Stmt.lower] at h
    obtain ⟨_, d₁, hexprs, hnewline⟩ := Action.bind_eq_ok.1 h
    obtain ⟨_, emits, _⟩ := Lowering.emits_printAll hexprs
    obtain ⟨_, emits'⟩ := Lowering.emits_print hnewline
    exact (emits.trans emits').grows
  | .branch loc cond yes no =>
    obtain ⟨_, _, _, _, d₁, d₂, d₃, d₄, d₅, d₆, hcond, reserved, opened, hyes, middle, hno,
      closed, _⟩ := Stmt.lower_branch h
    have grows := Lowering.grows_condition hcond
    have yesGrows := grows_lowerBlock hyes
    have noGrows := grows_lowerElse hno
    refine ⟨?_, fun fresh => ?_⟩
    · exact grows.extend.trans (reserved.extend.trans (opened.extend.trans (yesGrows.extend.trans
        (middle.extend.trans (noGrows.extend.trans closed.extend)))))
    · have opening := opened.fresh [_, _] (reserved.fresh (grows.fresh fresh))
      have between := middle.fresh [_] (yesGrows.fresh opening)
      exact closed.fresh [] (noGrows.fresh between)
  | .select loc subject cases otherwise =>
    obtain ⟨_, _, d₁, d₂, d₃, d₄, hsubject, reserved, hcases, hother, closed, _⟩ :=
      Stmt.lower_select h
    have grows := Expr.grows_lower hsubject
    have casesGrow := grows_lowerCases hcases
    have otherGrows := grows_lowerBlock hother
    refine ⟨?_, fun fresh => ?_⟩
    · exact grows.extend.trans (reserved.extend.trans (casesGrow.extend.trans
        (otherGrows.extend.trans closed.extend)))
    · have chosen := casesGrow.fresh (reserved.fresh (grows.fresh fresh))
      exact closed.fresh [] (otherGrows.fresh chosen)
  | .whileLoop loc cond body =>
    obtain ⟨_, _, _, _, d₁, d₂, d₃, d₄, d₅, reserved, opened, hcond, middle, hbody, closed, _⟩ :=
      Stmt.lower_whileLoop h
    have grows := Lowering.grows_condition hcond
    have bodyGrows := grows_lowerBlock hbody
    refine ⟨?_, fun fresh => ?_⟩
    · exact reserved.extend.trans (opened.extend.trans (grows.extend.trans (middle.extend.trans
        (bodyGrows.extend.trans closed.extend))))
    · have opening := opened.fresh [_, _] (reserved.fresh fresh)
      have between := middle.fresh [_] (grows.fresh opening)
      exact closed.fresh [] (bodyGrows.fresh between)
  | .repeatLoop loc body cond =>
    obtain ⟨_, _, _, d₁, d₂, d₃, d₄, reserved, opened, hbody, hcond, closed, _⟩ :=
      Stmt.lower_repeatLoop h
    have bodyGrows := grows_lowerBlock hbody
    have grows := Lowering.grows_condition hcond
    refine ⟨?_, fun fresh => ?_⟩
    · exact reserved.extend.trans (opened.extend.trans (bodyGrows.extend.trans
        (grows.extend.trans closed.extend)))
    · have opening := opened.fresh [_] (reserved.fresh fresh)
      exact closed.fresh [] (grows.fresh (bodyGrows.fresh opening))
  | .forLoop loc var first last step body =>
    obtain ⟨_, _, _, _, _, _, d₁, d₂, d₃, d₄, d₅, d₆, d₇, d₈, d₉, d₁₀, hfirst, reserved, opened,
      hload, htest, middle, hbody, hagain, hadd, hnext, closed, _⟩ := Stmt.lower_forLoop h
    have before := (Lowering.assign_eq_ok hfirst).1
    have test := (Lowering.grows_define hload).trans (Lowering.grows_define htest)
    have bodyGrows := grows_lowerBlock hbody
    obtain ⟨_, added, _⟩ := Lowering.emits_arithmetic hadd
    have after := (Lowering.grows_define hagain).trans
      (added.grows.trans (Lowering.assign_eq_ok hnext).1)
    refine ⟨?_, fun fresh => ?_⟩
    · exact before.extend.trans (reserved.extend.trans (opened.extend.trans (test.extend.trans
        (middle.extend.trans (bodyGrows.extend.trans (after.extend.trans closed.extend))))))
    · have opening := opened.fresh [_, _] (reserved.fresh (before.fresh fresh))
      have between := middle.fresh [_] (test.fresh opening)
      exact closed.fresh [] (after.fresh (bodyGrows.fresh between))
  | .dimension _ _ _ | .assignElement _ _ _ _ | .read _ _ =>
    rw [Stmt.lower] at h
    cases h

theorem grows_lowerBlock {ss : List Stmt} {d d' : Draft} (h : lowerBlock ss d = (.ok (), d')) :
    d.Grows d' := by
  match ss with
  | [] =>
    rw [lowerBlock] at h
    cases h
    exact .refl _
  | s :: rest =>
    rw [lowerBlock] at h
    obtain ⟨_, d₁, hfirst, hrest⟩ := Action.bind_eq_ok.1 h
    exact (Stmt.grows_lower hfirst).trans (grows_lowerBlock hrest)

theorem grows_lowerElse {no : Option (List Stmt)} {d d' : Draft}
    (h : lowerElse no d = (.ok (), d')) : d.Grows d' := by
  match no with
  | none =>
    rw [lowerElse] at h
    cases h
    exact .refl _
  | some body =>
    rw [lowerElse] at h
    exact grows_lowerBlock h

theorem grows_lowerCases {subject : Operand} {endLabel : Label} {cases : List (Expr × List Stmt)}
    {d d' : Draft} (h : lowerCases subject endLabel cases d = (.ok (), d')) : d.Grows d' := by
  match cases with
  | [] =>
    rw [lowerCases] at h
    cases h
    exact .refl _
  | (label, body) :: rest =>
    obtain ⟨_, _, _, _, d₁, d₂, d₃, d₄, d₅, d₆, hlabel, reserved, hcompare, opened, hbody, closed,
      hrest, _⟩ := lowerCases_cons h
    have grows := Expr.grows_lower hlabel
    have compared := Lowering.grows_define hcompare
    have bodyGrows := grows_lowerBlock hbody
    have restGrows := grows_lowerCases hrest
    refine ⟨?_, fun fresh => ?_⟩
    · exact grows.extend.trans (reserved.extend.trans (compared.extend.trans (opened.extend.trans
        (bodyGrows.extend.trans (closed.extend.trans restGrows.extend)))))
    · have opening := opened.fresh [_] (compared.fresh (reserved.fresh (grows.fresh fresh)))
      exact restGrows.fresh (closed.fresh [] (bodyGrows.fresh opening))

end

-- How many labels are given out depends on the text only.
mutual

theorem Stmt.labels_lower {s : Stmt} {d d' : Draft} (h : s.lower d = (.ok (), d')) :
    d'.labels = d.labels + s.labels := by
  match s with
  | .assign _ _ _ =>
    obtain ⟨v, d₁, hvalue, hassign⟩ := Stmt.lower_assign h
    rw [Lowering.labels_assign hassign, Expr.labels_lower hvalue]
    rfl
  | .print _ _ =>
    rw [Stmt.lower] at h
    obtain ⟨_, d₁, hexprs, hnewline⟩ := Action.bind_eq_ok.1 h
    obtain ⟨_, emits, _⟩ := Lowering.emits_printAll hexprs
    obtain ⟨_, emits'⟩ := Lowering.emits_print hnewline
    exact (emits.trans emits').labels
  | .branch _ _ _ _ =>
    obtain ⟨_, _, _, _, d₁, d₂, d₃, d₄, d₅, d₆, _, _, _, hyes, middle, hno, closed, given⟩ :=
      Stmt.lower_branch h
    rw [closed.count, labels_lowerElse hno, middle.count, labels_lowerBlock hyes, given,
      Stmt.labels]
    omega
  | .select _ _ _ _ =>
    obtain ⟨_, _, d₁, d₂, d₃, d₄, _, _, hcases, hother, closed, given⟩ := Stmt.lower_select h
    rw [closed.count, labels_lowerBlock hother, labels_lowerCases hcases, given, Stmt.labels]
    omega
  | .whileLoop _ _ _ =>
    obtain ⟨_, _, _, _, d₁, d₂, d₃, d₄, d₅, _, _, _, _, hbody, closed, given⟩ :=
      Stmt.lower_whileLoop h
    rw [closed.count, labels_lowerBlock hbody, given, Stmt.labels, Nat.add_assoc]
  | .repeatLoop _ _ _ =>
    obtain ⟨_, _, _, d₁, d₂, d₃, d₄, _, _, hbody, hcond, closed, given⟩ :=
      Stmt.lower_repeatLoop h
    rw [closed.count, Lowering.labels_condition hcond, labels_lowerBlock hbody, given, Stmt.labels,
      Nat.add_assoc]
  | .forLoop _ _ _ _ _ _ =>
    obtain ⟨_, _, _, _, _, _, d₁, d₂, d₃, d₄, d₅, d₆, d₇, d₈, d₉, d₁₀, _, _, _, _, _, _, hbody,
      hagain, hadd, hnext, closed, given⟩ := Stmt.lower_forLoop h
    obtain ⟨_, added, _⟩ := Lowering.emits_arithmetic hadd
    rw [closed.count, Lowering.labels_assign hnext, added.labels, Lowering.labels_define hagain,
      labels_lowerBlock hbody, given, Stmt.labels, Nat.add_assoc]
  | .dimension _ _ _ | .assignElement _ _ _ _ | .read _ _ =>
    rw [Stmt.lower] at h
    cases h

theorem labels_lowerBlock {ss : List Stmt} {d d' : Draft} (h : lowerBlock ss d = (.ok (), d')) :
    d'.labels = d.labels + labelsOfBlock ss := by
  match ss with
  | [] =>
    rw [lowerBlock] at h
    cases h
    rfl
  | s :: rest =>
    rw [lowerBlock] at h
    obtain ⟨_, d₁, hfirst, hrest⟩ := Action.bind_eq_ok.1 h
    rw [labels_lowerBlock hrest, Stmt.labels_lower hfirst, labelsOfBlock, Nat.add_assoc]

theorem labels_lowerElse {no : Option (List Stmt)} {d d' : Draft}
    (h : lowerElse no d = (.ok (), d')) : d'.labels = d.labels + labelsOfElse no := by
  match no with
  | none =>
    rw [lowerElse] at h
    cases h
    rfl
  | some body =>
    rw [lowerElse] at h
    exact labels_lowerBlock h

theorem labels_lowerCases {subject : Operand} {endLabel : Label} {cases : List (Expr × List Stmt)}
    {d d' : Draft} (h : lowerCases subject endLabel cases d = (.ok (), d')) :
    d'.labels = d.labels + labelsOfCases cases := by
  match cases with
  | [] =>
    rw [lowerCases] at h
    cases h
    rfl
  | (label, body) :: rest =>
    obtain ⟨_, _, _, _, d₁, d₂, d₃, d₄, d₅, d₆, _, _, _, _, hbody, closed, hrest, given⟩ :=
      lowerCases_cons h
    rw [labels_lowerCases hrest, closed.count, labels_lowerBlock hbody, given, labelsOfCases]
    omega

end

end Pseudocode

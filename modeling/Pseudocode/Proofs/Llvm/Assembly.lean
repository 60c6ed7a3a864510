import Pseudocode.Proofs.Llvm.Statements
import Pseudocode.Proofs.Llvm.Supply

/-!
# Every module is well formed

The rules for the pieces of the work, with what they do to the account, and a walk through the
program that applies them. All that a statement adds to the account is gone behind it, so the walk
needs no more than the account in front of a statement.
-/

namespace Pseudocode

namespace Llvm

theorem nodup_addNew {α : Type} [BEq α] [LawfulBEq α] {xs : List α} (distinct : xs.Nodup) (x : α) :
    (addNew xs x).Nodup := by
  rw [addNew]
  split
  · exact distinct
  · next other =>
    have new : x ∉ xs := by simpa using other
    exact List.nodup_append.2 ⟨distinct, by simp, fun a ha b hb same =>
      new (List.mem_singleton.1 hb ▸ same ▸ ha)⟩

theorem nodup_foldl_addNew {α : Type} [BEq α] [LawfulBEq α] (new : List α) {xs : List α}
    (distinct : xs.Nodup) : (new.foldl addNew xs).Nodup := by
  induction new generalizing xs with
  | nil => exact distinct
  | cons x new ih => exact ih (nodup_addNew distinct x)

/-- The account when a value is there. -/
def Account.holding (Γ : Account) (v : Operand) : Account := Γ.having v.reads

namespace Lowering

variable {α β : Type}

/-- The work comes from every draft that allows an account to one that allows the next. -/
def Keeps (Γ : Account) (x : Lowering α) (next : α → Account) : Prop :=
  ∀ d a d', d.Allows Γ → x d = (.ok a, d') → d'.Allows (next a)

namespace Keeps

variable {Γ Γ' : Account} {x : Lowering α} {f : α → Lowering β} {mid : α → Account}
  {next : β → Account}

theorem pure {next : α → Account} {a : α} (covers : Γ.Covers (next a)) :
    Keeps Γ (pure a : Lowering α) next := by
  intro d _ d' allows ran
  cases ran
  exact allows.weaken covers

theorem refuse (loc : Option Location) (u : Unsupported) (next : α → Account) :
    Keeps Γ (refuse loc u : Lowering α) next := by
  intro d a d' _ ran
  cases ran

theorem bind (first : Keeps Γ x mid) (rest : ∀ a, Keeps (mid a) (f a) next) :
    Keeps Γ (x >>= f) next := by
  intro d b d' allows ran
  obtain ⟨a, m, ran, later⟩ := Action.bind_eq_ok.1 ran
  exact rest a m b d' (first d a m allows ran) later

theorem weaken {next' : α → Account} (covers : ∀ a, (mid a).Covers (next' a))
    (h : Keeps Γ x mid) : Keeps Γ x next' :=
  fun d a d' allows ran => (h d a d' allows ran).weaken (covers a)

/-- An operation whose operands are there and whose names were met. -/
theorem define (op : Operation) (reads : op.reads ⊆ Γ.live)
    (declared : ∀ r, (Instr.define r op).Declared Γ.names) :
    Keeps Γ (define op) fun r => Γ.having [r] := by
  intro d r d' allows ran
  cases ran
  exact allows.write (i := .define d.registers op) reads (declared _) List.range_succ.symm

/-- The same, where the result is used as a value. -/
theorem value (op : Operation) (reads : op.reads ⊆ Γ.live)
    (declared : ∀ r, (Instr.define r op).Declared Γ.names) :
    Keeps Γ (do return .register (← Lowering.define op) : Lowering Operand) Γ.holding :=
  (define op reads declared).bind fun _ => pure (.refl _)

theorem newLabel (role : Role) (reserved made : List Label) :
    Keeps (Γ.within reserved made) (newLabel role) fun l =>
      Γ.within (l :: reserved) (l :: made) := by
  intro d l d' allows ran
  cases ran
  exact allows.reserve role

/-- The first label of a statement. -/
theorem firstLabel (role : Role) : Keeps Γ (Lowering.newLabel role) fun l => Γ.within [l] [l] :=
  newLabel role [] []

/-- A block is finished inside a statement, and the work goes on under one of its labels. -/
theorem leave {t : Terminator} {target : Label} (before : List Label) {after made : List Label}
    (covers : Γ'.Covers (Γ.within (before ++ target :: after) made)) (mem : target ∈ made)
    (reads : t.reads ⊆ Γ'.live) (targets : ∀ l ∈ t.targets, Γ'.Knows l) :
    Keeps Γ' (finish t target) fun _ => Γ.within (before ++ after) made := by
  intro d _ d' allows ran
  cases ran
  have reserved : Γ'.reserved = before ++ target :: (after ++ Γ.reserved) :=
    covers.reserved.symm.trans (List.append_assoc before (target :: after) Γ.reserved)
  have known : (target, Γ.live) ∈ Γ'.known :=
    covers.known (List.mem_append_left _ (List.mem_map_of_mem mem))
  have finished := allows.finish reserved known reads targets
  have left : Account.Covers
      { Γ' with reserved := before ++ (after ++ Γ.reserved), live := Γ.live }
      (Γ.within (before ++ after) made) :=
    ⟨List.append_assoc before after Γ.reserved, covers.known, List.Subset.refl _, covers.names⟩
  exact finished.weaken left

/-- The same, where control goes to labels of the statement. -/
theorem finish {t : Terminator} {target : Label} (before : List Label) {after made : List Label}
    (covers : Γ'.Covers (Γ.within (before ++ target :: after) made)) (mem : target ∈ made)
    (reads : t.reads ⊆ Γ'.live) (targets : t.targets ⊆ made) :
    Keeps Γ' (finish t target) fun _ => Γ.within (before ++ after) made :=
  leave before covers mem reads fun _ hl => (Γ.knows_within _ (targets hl)).mono covers

theorem declare (name : Text) :
    Keeps Γ (declare name) fun _ =>
      Γ.naming { Γ.names with slots := name :: Γ.names.slots } := by
  intro d _ d' allows ran
  cases ran
  obtain ⟨slots, routines, strings⟩ := allows.names
  have old : d.slots ⊆ addNew d.slots name := fun _ mem => mem_addNew_iff.2 (.inl mem)
  exact allows.meet (n := ⟨addNew d.slots name, d.routines, d.strings⟩)
    ⟨old, List.Subset.refl _, List.Subset.refl _⟩
    ⟨List.cons_subset.2 ⟨mem_addNew_iff.2 (.inr rfl), fun _ hx => old (slots hx)⟩, routines,
      strings⟩
    ⟨nodup_addNew allows.distinct.1 name, allows.distinct.2⟩

theorem declareRoutine (f : Routine) :
    Keeps Γ (Action.update fun d => { d with routines := addNew d.routines f }) fun _ =>
      Γ.naming { Γ.names with routines := f :: Γ.names.routines } := by
  intro d _ d' allows ran
  cases ran
  obtain ⟨slots, routines, strings⟩ := allows.names
  have old : d.routines ⊆ addNew d.routines f := fun _ mem => mem_addNew_iff.2 (.inl mem)
  exact allows.meet (n := ⟨d.slots, addNew d.routines f, d.strings⟩)
    ⟨List.Subset.refl _, old, List.Subset.refl _⟩
    ⟨slots, List.cons_subset.2 ⟨mem_addNew_iff.2 (.inr rfl), fun _ hr => old (routines hr)⟩,
      strings⟩
    ⟨allows.distinct.1, nodup_addNew allows.distinct.2.1 f, allows.distinct.2.2⟩

theorem declareStrings (new : List Text) :
    Keeps Γ (Action.update fun d => { d with strings := new.foldl addNew d.strings }) fun _ =>
      Γ.naming { Γ.names with strings := new ++ Γ.names.strings } := by
  intro d _ d' allows ran
  cases ran
  obtain ⟨slots, routines, strings⟩ := allows.names
  have old : d.strings ⊆ new.foldl addNew d.strings :=
    fun _ mem => mem_foldl_addNew_iff.2 (.inl mem)
  exact allows.meet (n := ⟨d.slots, d.routines, new.foldl addNew d.strings⟩)
    ⟨List.Subset.refl _, List.Subset.refl _, old⟩
    ⟨slots, routines, List.append_subset.2
      ⟨fun _ mem => mem_foldl_addNew_iff.2 (.inr mem), fun _ hs => old (strings hs)⟩⟩
    ⟨allows.distinct.1, allows.distinct.2.1, nodup_foldl_addNew new allows.distinct.2.2⟩

theorem assign {name : Text} {v : Operand} (reads : v.reads ⊆ Γ.live) :
    Keeps Γ (assign name v) fun _ =>
      Γ.naming { Γ.names with slots := name :: Γ.names.slots } := by
  refine (declare name).bind fun _ d _ d' allows ran => ?_
  cases ran
  exact allows.write (i := .store v name) reads (List.mem_cons_self ..) (List.append_nil _)

theorem print {what : Printed} (reads : what.reads ⊆ Γ.live) :
    Keeps Γ (print what) fun _ => Γ := by
  refine (declareStrings what.strings).bind fun _ => (define (.print what) ?_ fun _ => ?_).bind
    fun r => pure ((Account.covers_having _ [r]).trans (Account.covers_naming ?_))
  · exact reads
  · exact List.subset_append_left _ _
  · exact ⟨List.Subset.refl _, List.Subset.refl _, List.subset_append_right _ _⟩

theorem callRoutine {f : Routine} {v : Operand} (reads : v.reads ⊆ Γ.live) :
    Keeps Γ (callRoutine f v) Γ.holding := by
  refine (declareRoutine f).bind fun _ => (value (.call f v) ?_ fun _ => ?_).weaken fun w =>
    (Account.covers_naming ?_).having w.reads
  · exact reads
  · exact List.mem_cons_self ..
  · exact ⟨List.Subset.refl _, List.subset_cons_self _ _, List.Subset.refl _⟩

section Operations

variable {a b : Operand}

theorem arithmetic (op : Arithmetic) (ha : a.reads ⊆ Γ.live) (hb : b.reads ⊆ Γ.live) :
    Keeps Γ (arithmetic op a b) Γ.holding :=
  value (.arithmetic op a b) (List.append_subset.2 ⟨ha, hb⟩) fun _ => trivial

theorem truth (ha : a.reads ⊆ Γ.live) : Keeps Γ (truth a) fun r => Γ.having [r] :=
  define (.compare .one a (.constant 0)) (List.append_subset.2 ⟨ha, List.nil_subset _⟩)
    fun _ => trivial

/-- A truth value that is there is made a number. -/
theorem toDouble (r : Register) :
    Keeps (Γ.having [r]) (do return .register (← Lowering.define (.toDouble r)) : Lowering Operand)
      Γ.holding :=
  (value (.toDouble r) (List.subset_append_left _ _) fun _ => trivial).weaken fun v =>
    (Γ.covers_having [r]).having v.reads

theorem comparison (p : Predicate) (ha : a.reads ⊆ Γ.live) (hb : b.reads ⊆ Γ.live) :
    Keeps Γ (comparison p a b) Γ.holding :=
  (define (.compare p a b) (List.append_subset.2 ⟨ha, hb⟩) fun _ => trivial).bind toDouble

theorem connective (op : Connective) (ha : a.reads ⊆ Γ.live) (hb : b.reads ⊆ Γ.live) :
    Keeps Γ (connective op a b) Γ.holding := by
  refine (truth ha).bind fun r => (truth ?_).bind fun s =>
    (define (.connect op r s) ?_ fun _ => trivial).bind fun t => (toDouble t).weaken fun v => ?_
  · exact fun _ hr => List.mem_append_right _ (hb hr)
  · simp [Operation.reads, Account.having]
  · exact ((Account.covers_having _ [s]).trans (Γ.covers_having [r])).having v.reads

theorem binary (loc : Option Location) (op : BinaryOp) (ha : a.reads ⊆ Γ.live)
    (hb : b.reads ⊆ Γ.live) : Keeps Γ (binary loc op a b) Γ.holding := by
  cases op with
  | add | sub | mul | div => exact arithmetic _ ha hb
  | gt | lt | ge | le | eq | ne => exact comparison _ ha hb
  | and | or => exact connective _ ha hb
  | other => exact refuse _ _ _

theorem apply (f : MathFunction) (ha : a.reads ⊆ Γ.live) : Keeps Γ (apply f a) Γ.holding := by
  cases f with
  | round =>
    refine (arithmetic .fadd ha (List.nil_subset _)).bind fun v => ?_
    refine (callRoutine (List.subset_append_left _ _)).weaken fun w => ?_
    exact (Γ.covers_having v.reads).having w.reads
  | _ => exact callRoutine ha

end Operations

end Keeps

end Lowering

open Lowering

/-- A variable that was met is loaded. -/
theorem Lowering.Keeps.load (Γ : Account) (x : Text) (loc : Option Location) :
    Keeps Γ (do
      if (← Action.state).slots.contains x then return .register (← Lowering.define (.load x))
      else Lowering.refuse loc (.unassigned x) : Lowering Operand) Γ.holding := by
  intro d v d' allows ran
  obtain ⟨_, _, read, ran⟩ := Action.bind_eq_ok.1 ran
  cases read
  split at ran
  · next there =>
    obtain ⟨slots, routines, strings⟩ := allows.names
    have mem : x ∈ d.slots := by simpa using there
    have met := allows.meet (n := d.names) (m := { Γ.names with slots := x :: Γ.names.slots })
      (.refl _) ⟨List.cons_subset.2 ⟨mem, slots⟩, routines, strings⟩ allows.distinct
    have loaded :=
      value (.load x) (List.nil_subset _) (fun _ => List.mem_cons_self ..) d v d' met ran
    refine loaded.weaken ((Account.covers_naming ?_).having v.reads)
    exact ⟨List.subset_cons_self _ _, List.Subset.refl _, List.Subset.refl _⟩
  · cases ran

-- The recursion is that of the expression.
theorem Lowering.Keeps.expression (Γ : Account) (e : Expr) : Keeps Γ e.lower Γ.holding := by
  cases e with
  | number | boolean =>
    rw [Expr.lower]
    exact .pure (.refl _)
  | name loc x =>
    rw [Expr.lower]
    exact .load Γ x loc
  | unary _ _ a =>
    rw [Expr.lower]
    refine (expression Γ a).bind fun v => ?_
    refine (Keeps.arithmetic .fsub (List.nil_subset _) (List.subset_append_left _ _)).weaken ?_
    exact fun w => (Γ.covers_having v.reads).having w.reads
  | binary loc op a b =>
    rw [Expr.lower]
    refine (expression Γ a).bind fun v => (expression _ b).bind fun w => ?_
    refine (Keeps.binary loc op ?_ (List.subset_append_left _ _)).weaken fun u => ?_
    · exact fun _ hr => List.mem_append_right _ (List.mem_append_left _ hr)
    · exact ((Account.covers_having _ w.reads).trans (Γ.covers_having v.reads)).having u.reads
  | call loc function args =>
    rw [Expr.lower]
    cases MathFunction.ofName? function with
    | none => exact .refuse _ _ _
    | some f =>
      rcases args with _ | ⟨arg, _ | ⟨second, others⟩⟩
      · exact .refuse _ _ _
      · refine (expression Γ arg).bind fun v => ?_
        refine (Keeps.apply f (List.subset_append_left _ _)).weaken fun w => ?_
        exact (Γ.covers_having v.reads).having w.reads
      · exact .refuse _ _ _
  | text | element =>
    rw [Expr.lower]
    exact .refuse _ _ _

namespace Lowering.Keeps

theorem condition (Γ : Account) (e : Expr) : Keeps Γ (condition e) fun c => Γ.having [c] :=
  (expression Γ e).bind fun v => (truth (List.subset_append_left _ _)).weaken fun c =>
    (Γ.covers_having v.reads).having [c]

theorem printed (Γ : Account) (e : Expr) : Keeps Γ (printed e) fun _ => Γ := by
  have value : Keeps Γ (do let v ← e.lower; Lowering.print (.number v)) fun _ => Γ :=
    (expression Γ e).bind fun v => (print (List.subset_append_left _ _)).weaken fun _ =>
      Γ.covers_having v.reads
  cases e with
  | text => exact print (List.nil_subset _)
  | _ => exact value

theorem printAll (Γ : Account) (es : List Expr) : Keeps Γ (printAll es) fun _ => Γ := by
  induction es with
  | nil => exact .pure (.refl _)
  | cons e rest ih => exact (printed Γ e).bind fun _ => ih

end Lowering.Keeps

-- The recursion is that of the program. A statement may add to what is known and to the names that
-- were met, but then that is given up again.
mutual

theorem keeps_statement (Γ : Account) (s : Stmt) : Keeps Γ s.lower fun _ => Γ := by
  match s with
  | .assign _ name e =>
    rw [Stmt.lower]
    refine (Keeps.expression Γ e).bind fun v => (Keeps.assign (List.subset_append_left _ _)).weaken
      fun _ => (Account.covers_naming ?_).trans (Γ.covers_having v.reads)
    exact ⟨List.subset_cons_self _ _, List.Subset.refl _, List.Subset.refl _⟩
  | .print _ exprs =>
    rw [Stmt.lower]
    exact (Keeps.printAll Γ exprs).bind fun _ => .print (List.nil_subset _)
  | .branch _ cond yes no =>
    rw [Stmt.lower]
    refine (Keeps.condition Γ cond).bind fun c => (Keeps.firstLabel .ifThen).bind fun thenLabel =>
      (Keeps.newLabel .ifElse _ _).bind fun elseLabel =>
      (Keeps.newLabel .ifEnd _ _).bind fun endLabel => ?_
    refine (Keeps.finish [endLabel, elseLabel] (.refl _) (by simp) (List.subset_append_left _ _)
        (by simp [Terminator.targets])).bind fun _ => (keeps_block _ yes).bind fun _ =>
      (Keeps.finish [endLabel] (.refl _) (by simp) (List.nil_subset _)
        (by simp [Terminator.targets])).bind fun _ => (keeps_else _ no).bind fun _ =>
      (Keeps.finish [] (.refl _) (by simp) (List.nil_subset _)
        (by simp [Terminator.targets])).weaken fun _ => ?_
    exact (Account.covers_within _ _).trans (Γ.covers_having [c])
  | .select _ subject cases otherwise =>
    rw [Stmt.lower]
    refine (Keeps.expression Γ subject).bind fun v => (Keeps.firstLabel .switchEnd).bind
      fun endLabel => (keeps_cases _ cases (List.subset_append_left _ _)
        (Account.knows_within _ _ (List.mem_singleton_self _))).bind fun _ =>
      (keeps_block _ otherwise).bind fun _ =>
      (Keeps.finish [] (.refl _) (by simp) (List.nil_subset _)
        (by simp [Terminator.targets])).weaken fun _ => ?_
    exact (Account.covers_within _ _).trans (Γ.covers_having v.reads)
  | .whileLoop _ cond body =>
    rw [Stmt.lower]
    refine (Keeps.firstLabel .whileCond).bind fun condLabel =>
      (Keeps.newLabel .whileBody _ _).bind fun bodyLabel =>
      (Keeps.newLabel .whileEnd _ _).bind fun endLabel =>
      (Keeps.finish [endLabel, bodyLabel] (.refl _) (by simp) (List.nil_subset _)
        (by simp [Terminator.targets])).bind fun _ => (Keeps.condition _ cond).bind fun c =>
      (Keeps.finish [endLabel] (Account.covers_having _ [c]) (by simp)
        (List.subset_append_left _ _) (by simp [Terminator.targets])).bind fun _ =>
      (keeps_block _ body).bind fun _ =>
      (Keeps.finish [] (.refl _) (by simp) (List.nil_subset _)
        (by simp [Terminator.targets])).weaken fun _ => ?_
    exact Account.covers_within _ _
  | .repeatLoop _ body cond =>
    rw [Stmt.lower]
    refine (Keeps.firstLabel .repeatBody).bind fun bodyLabel =>
      (Keeps.newLabel .repeatEnd _ _).bind fun endLabel =>
      (Keeps.finish [endLabel] (.refl _) (by simp) (List.nil_subset _)
        (by simp [Terminator.targets])).bind fun _ => (keeps_block _ body).bind fun _ =>
      (Keeps.condition _ cond).bind fun c =>
      (Keeps.finish [] (Account.covers_having _ [c]) (by simp) (List.subset_append_left _ _)
        (by simp [Terminator.targets])).weaken fun _ => ?_
    exact Account.covers_within _ _
  | .forLoop _ var first last step body =>
    rw [Stmt.lower]
    refine (Keeps.assign (List.nil_subset _)).bind fun _ =>
      (Keeps.firstLabel .forCond).bind fun condLabel =>
      (Keeps.newLabel .forBody _ _).bind fun bodyLabel =>
      (Keeps.newLabel .forEnd _ _).bind fun endLabel =>
      (Keeps.finish [endLabel, bodyLabel] (.refl _) (by simp) (List.nil_subset _)
        (by simp [Terminator.targets])).bind fun _ =>
      (Keeps.define (.load var) (List.nil_subset _) fun _ => List.mem_cons_self ..).bind
        fun counter => (Keeps.define (.compare .ole (.register counter) (.constant last))
          (by simp [Operation.reads, Operand.reads, Account.having]) fun _ => trivial).bind fun c =>
      (Keeps.finish [endLabel]
        ((Account.covers_having _ [c]).trans (Account.covers_having _ [counter])) (by simp)
        (List.subset_append_left _ _) (by simp [Terminator.targets])).bind fun _ =>
      (keeps_block _ body).bind fun _ =>
      (Keeps.define (.load var) (List.nil_subset _) fun _ => List.mem_cons_self ..).bind
        fun counter' => (Keeps.arithmetic .fadd (List.subset_append_left _ _)
          (List.nil_subset _)).bind fun next =>
      (Keeps.assign (List.subset_append_left _ _)).bind fun _ =>
      (Keeps.finish [] ((Account.covers_naming ?_).trans ((Account.covers_having _ next.reads).trans
        (Account.covers_having _ [counter']))) (by simp) (List.nil_subset _)
        (by simp [Terminator.targets])).weaken fun _ =>
      (Account.covers_within _ _).trans (Account.covers_naming ?_)
    · exact ⟨List.subset_cons_self _ _, List.Subset.refl _, List.Subset.refl _⟩
    · exact ⟨List.subset_cons_self _ _, List.Subset.refl _, List.Subset.refl _⟩
  | .dimension _ _ _ | .assignElement _ _ _ _ | .read _ _ =>
    rw [Stmt.lower]
    exact .refuse _ _ _

theorem keeps_block (Γ : Account) (ss : List Stmt) : Keeps Γ (lowerBlock ss) fun _ => Γ := by
  match ss with
  | [] =>
    rw [lowerBlock]
    exact .pure (.refl _)
  | s :: rest =>
    rw [lowerBlock]
    exact (keeps_statement Γ s).bind fun _ => keeps_block Γ rest

theorem keeps_else (Γ : Account) (no : Option (List Stmt)) :
    Keeps Γ (lowerElse no) fun _ => Γ := by
  match no with
  | none =>
    rw [lowerElse]
    exact .pure (.refl _)
  | some body =>
    rw [lowerElse]
    exact keeps_block Γ body

theorem keeps_cases (Γ : Account) {subject : Operand} {endLabel : Label}
    (cases : List (Expr × List Stmt)) (there : subject.reads ⊆ Γ.live) (ends : Γ.Knows endLabel) :
    Keeps Γ (lowerCases subject endLabel cases) fun _ => Γ := by
  match cases with
  | [] =>
    rw [lowerCases]
    exact .pure (.refl _)
  | (label, body) :: rest =>
    rw [lowerCases]
    refine (Keeps.expression Γ label).bind fun v =>
      (Keeps.firstLabel .switchCase).bind fun caseLabel =>
      (Keeps.newLabel .switchNext _ _).bind fun nextLabel =>
      (Keeps.define (.compare .oeq subject v) ?_ fun _ => trivial).bind fun c =>
      (Keeps.finish [nextLabel] (Account.covers_having _ [c]) (by simp)
        (List.subset_append_left _ _) (by simp [Terminator.targets])).bind fun _ =>
      (keeps_block _ body).bind fun _ =>
      (Keeps.leave [] (.refl _) (by simp) (List.nil_subset _) ?_).bind fun _ =>
      (keeps_cases _ rest ?_ ?_).weaken fun _ =>
      (Account.covers_within _ _).trans (Γ.covers_having v.reads)
    · exact List.append_subset.2
        ⟨fun _ hr => List.mem_append_right _ (there hr), List.subset_append_left _ _⟩
    · intro l hl
      rw [List.mem_singleton.1 hl]
      exact (ends.mono (Γ.covers_having v.reads)).within _ _
    · exact fun _ hr => List.mem_append_right _ (there hr)
    · exact (ends.mono (Γ.covers_having v.reads)).within _ _

end

end Llvm

end Pseudocode

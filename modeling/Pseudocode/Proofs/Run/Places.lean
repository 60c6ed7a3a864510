import Pseudocode.Proofs.Program.Places
import Pseudocode.Proofs.Run.Turns

/-!
# Runs of programs without places

A place is only ever shown with an error. So a program without its places has the same run: it does
the same at its channels, leaves the same store, and fails where the program fails, only that the
error names no place. In particular, two programs that differ in their places have the same run if
one of them comes to its end.
-/

namespace Pseudocode

/-- An error without its place. -/
def RuntimeError.bare (e : RuntimeError) : RuntimeError := { e with loc := none }

/-- Why a run stopped, without a place. -/
def Halt.bare : Halt → Halt
  | failed e => failed e.bare
  | exhausted => exhausted

namespace Eval

variable {α : Type} (loc : Option Location)

theorem viewError_located (r : Except Fault α) :
    (located loc r).viewError RuntimeError.bare = located none r := by
  cases r with
  | _ => rfl

theorem viewError_call (draws : Nat → Number) (store : Store) (b : Builtin) (args : List Value) :
    (call draws store loc b args).viewError RuntimeError.bare = call draws store none b args := by
  simp only [call]
  split
  · funext n
    simp only [Action.viewError, Action.onPart]
    split
    · next h =>
      split at h
      · cases h
        rfl
      · cases h
    · next h =>
      split at h
      · cases h
      · cases h
        rfl
  · rfl

end Eval

open Pseudocode.Action (viewError_bind viewError_pure)

-- The recursion is that of the expression.
mutual

theorem Expr.eval_bare (draws : Nat → Number) (store : Store) (e : Expr) :
    e.bare.eval draws store = (e.eval draws store).viewError RuntimeError.bare := by
  match e with
  | .text _ _ | .number _ _ | .boolean _ _ =>
    rw [Expr.bare, Expr.eval, Expr.eval]
    rfl
  | .name _ x =>
    rw [Expr.bare, Expr.eval, Expr.eval]
    cases store.get? x with
    | _ => rfl
  | .unary _ _ a =>
    rw [Expr.bare, Expr.eval, Expr.eval, viewError_bind, a.eval_bare draws store]
    simp only [Eval.viewError_located]
  | .binary _ _ a b =>
    rw [Expr.bare, Expr.eval, Expr.eval, viewError_bind, a.eval_bare draws store]
    simp only [viewError_bind, b.eval_bare draws store, Eval.viewError_located]
  | .element _ _ index =>
    rw [Expr.bare, Expr.eval, Expr.eval, viewError_bind, Eval.viewError_located]
    simp only [viewError_bind, index.eval_bare draws store, Eval.viewError_located, viewError_pure]
  | .call _ name args =>
    rw [Expr.bare, Expr.eval, Expr.eval]
    cases Builtin.ofName? name with
    | none => rfl
    | some b =>
      simp only [viewError_bind, evalAll_bare draws store args, Eval.viewError_call]

theorem evalAll_bare (draws : Nat → Number) (store : Store) (es : List Expr) :
    evalAll draws store (bareAll es) = (evalAll draws store es).viewError RuntimeError.bare := by
  match es with
  | [] =>
    rw [bareAll, evalAll]
    rfl
  | e :: rest =>
    rw [bareAll, evalAll, evalAll]
    simp only [viewError_bind, e.eval_bare draws store, evalAll_bare draws store rest,
      viewError_pure]

end

namespace Run

variable (host : Host) (loc : Option Location)

theorem viewError_checkpoint :
    (checkpoint host loc).viewError Halt.bare = checkpoint host none := by
  funext m
  simp only [Action.viewError, checkpoint]
  cases interruption? host m with
  | some cause => rfl
  | none =>
    by_cases beyond : 0 < host.maxSteps ∧ host.maxSteps < m.steps + 1
    · simp only [if_pos beyond]
      rfl
    · simp only [if_neg beyond]

theorem viewError_evaluating {α : Type} (x : Store → Eval α) :
    (evaluating x).viewError Halt.bare =
      evaluating fun store => (x store).viewError RuntimeError.bare := by
  funext m
  rcases h : x m.store m.channels.drawn with ⟨e | a, drawn⟩
  · simp only [Action.viewError, evaluating, h]
    rfl
  · simp only [Action.viewError, evaluating, h]

theorem value_bare (e : Expr) : value host e.bare = (value host e).viewError Halt.bare := by
  simp only [value, viewError_evaluating, e.eval_bare]

theorem viewError_bindVariable (name : Text) (v : Value) :
    (bindVariable loc name v).viewError Halt.bare = bindVariable none name v := by
  funext m
  simp only [Action.viewError, bindVariable]
  cases m.store.set? name v with
  | _ => rfl

theorem viewError_writeLine (line : Text) :
    (writeLine host loc line).viewError Halt.bare = writeLine host none line := by
  funext m
  simp only [Action.viewError, writeLine]
  by_cases h : host.failWrite = some (m.channels.writes + 1)
  · simp only [h, if_true]
    rfl
  · simp only [h, if_false]

theorem viewError_readLine (name : Text) :
    (readLine host loc name).viewError Halt.bare = readLine host none name := by
  funext m
  simp only [Action.viewError, readLine]
  rcases m.channels.input.readUnless (interruption? host m) name with ⟨e | line, input⟩
  · rfl
  · rfl

theorem readAll_bare (targets : List Target) :
    readAll host (targets.map Target.bare) = (readAll host targets).viewError Halt.bare := by
  induction targets with
  | nil => rfl
  | cons t rest ih =>
    rw [List.map_cons, readAll, readAll, ih]
    simp only [readInto, Target.bare, viewError_bind, viewError_readLine, viewError_bindVariable]

theorem declaredSize_bare (name : Text) (size : Expr) :
    evaluating (declaredSize host none name size.bare) =
      (evaluating (declaredSize host loc name size)).viewError Halt.bare := by
  rw [viewError_evaluating]
  congr 1
  funext store
  simp only [declaredSize, viewError_bind, size.eval_bare]
  congr 1
  funext v
  split
  · rfl
  · rw [Eval.viewError_located]

theorem elementTarget_bare (name : Text) (index e : Expr) :
    evaluating (elementTarget host none name index.bare e.bare) =
      (evaluating (elementTarget host loc name index e)).viewError Halt.bare := by
  rw [viewError_evaluating]
  congr 1
  funext store
  simp only [elementTarget, viewError_bind, index.eval_bare, e.eval_bare, Eval.viewError_located,
    viewError_pure]

theorem printedLine_bare (exprs : List Expr) :
    evaluating (printedLine host (exprs.map Expr.bare)) =
      (evaluating (printedLine host exprs)).viewError Halt.bare := by
  rw [viewError_evaluating]
  congr 1
  funext store
  simp only [printedLine, viewError_bind, ← bareAll_eq, evalAll_bare, viewError_pure]

theorem viewError_loop (turns : Nat) (turn : Run Bool) :
    (loop turns turn).viewError Halt.bare = loop turns (turn.viewError Halt.bare) := by
  induction turns with
  | zero => rfl
  | succ turns ih =>
    rw [loop_succ, loop_succ, viewError_bind]
    congr 1
    funext again
    cases again with
    | true => exact ih
    | false => rfl

theorem viewError_count (last step : Number) (turns : Nat) (turn : Number → Run Unit)
    (first : Number) :
    (count last step turns turn first).viewError Halt.bare =
      count last step turns (fun counter => (turn counter).viewError Halt.bare) first := by
  induction turns generalizing first with
  | zero => rfl
  | succ turns ih =>
    rw [count_succ, count_succ]
    split
    · rw [viewError_bind]
      congr 1
      funext _
      exact ih _
    · rfl

end Run

-- The recursion is that of the program.
mutual

theorem Stmt.exec_bare (host : Host) (turns : Nat) (s : Stmt) :
    s.bare.exec host turns = (s.exec host turns).viewError Halt.bare := by
  rw [Stmt.exec.eq_def, Stmt.exec.eq_def, viewError_bind, Run.viewError_checkpoint]
  match s with
  | .assign loc name e =>
    simp only [Stmt.bare, Stmt.loc, viewError_bind, Run.value_bare, Run.viewError_bindVariable]
  | .dimension loc name size =>
    simp only [Stmt.bare, Stmt.loc, viewError_bind, Run.declaredSize_bare host loc]
    rfl
  | .assignElement loc name index e =>
    simp only [Stmt.bare, Stmt.loc, viewError_bind, Run.elementTarget_bare host loc]
    rfl
  | .print loc exprs =>
    simp only [Stmt.bare, Stmt.loc, viewError_bind, Run.printedLine_bare, Run.viewError_writeLine]
  | .read loc targets => simp only [Stmt.bare, Stmt.loc, Run.readAll_bare]
  | .branch loc cond yes no =>
    simp only [Stmt.bare, Stmt.loc, viewError_bind, Run.value_bare]
    congr 1
    funext _
    congr 1
    funext v
    split
    · exact execBlock_bare host turns yes
    · exact execElse_bare host turns no
  | .select loc subject cases otherwise =>
    simp only [Stmt.bare, Stmt.loc, viewError_bind, Run.value_bare]
    congr 1
    funext _
    congr 1
    funext v
    exact execCases_bare host turns v cases (execBlock_bare host turns otherwise)
  | .whileLoop loc cond body =>
    simp only [Stmt.bare, Stmt.loc, Run.viewError_loop, viewError_bind, Run.viewError_checkpoint,
      Run.value_bare, execBlock_bare host turns body, apply_ite (Action.viewError Halt.bare),
      viewError_pure]
  | .repeatLoop loc body cond =>
    simp only [Stmt.bare, Stmt.loc, Run.viewError_loop, viewError_bind, Run.viewError_checkpoint,
      Run.value_bare, execBlock_bare host turns body, viewError_pure]
  | .forLoop loc var first last step body =>
    simp only [Stmt.bare, Stmt.loc, Run.viewError_count, viewError_bind, Run.viewError_checkpoint,
      Run.viewError_bindVariable, execBlock_bare host turns body]

theorem execBlock_bare (host : Host) (turns : Nat) (ss : List Stmt) :
    execBlock host turns (bareBlock ss) = (execBlock host turns ss).viewError Halt.bare := by
  match ss with
  | [] =>
    rw [bareBlock, execBlock]
    rfl
  | s :: rest =>
    rw [bareBlock, execBlock, execBlock, viewError_bind, s.exec_bare host turns,
      execBlock_bare host turns rest]

theorem execElse_bare (host : Host) (turns : Nat) (no : Option (List Stmt)) :
    execElse host turns (bareElse no) = (execElse host turns no).viewError Halt.bare := by
  match no with
  | none =>
    rw [bareElse, execElse]
    rfl
  | some body =>
    rw [bareElse, execElse, execElse]
    exact execBlock_bare host turns body

theorem execCases_bare (host : Host) (turns : Nat) (subject : Value)
    (cases : List (Expr × List Stmt)) {otherwise otherwise' : Run Unit}
    (h : otherwise' = otherwise.viewError Halt.bare) :
    execCases host turns subject (bareCases cases) otherwise' =
      (execCases host turns subject cases otherwise).viewError Halt.bare := by
  match cases with
  | [] =>
    rw [bareCases, execCases, execCases]
    exact h
  | (label, body) :: rest =>
    rw [bareCases, execCases, execCases, viewError_bind, Run.value_bare]
    congr 1
    funext v
    split
    · exact execBlock_bare host turns body
    · exact execCases_bare host turns subject rest h

end

/-- A report without a place. -/
def Report.bare (r : Report) : Report := { r with halt := r.halt.map Halt.bare }

theorem Report.eq_of_bare_eq {r r' : Report} (same : r.bare = r'.bare) (ended : r.halt = none) :
    r' = r := by
  obtain ⟨log, store, steps, halt⟩ := r
  obtain ⟨log', store', steps', halt'⟩ := r'
  obtain rfl : halt = none := ended
  obtain ⟨rfl, rfl, rfl, halts⟩ := Report.mk.inj same
  cases halt' with
  | none => rfl
  | some => cases halts

namespace Program

/-- A program without its places has the same run. -/
theorem runFor_bare (turns : Nat) (host : Host) (p : Program) (channels : Channels) :
    p.bare.runFor turns host channels =
      ((p.runFor turns host channels).1.bare, (p.runFor turns host channels).2) := by
  rw [runFor_eq, runFor_eq, Program.bare, ← bareBlock_eq, execBlock_bare]
  rcases h : execBlock host turns p.body ⟨.empty, 0, #[], channels⟩ with ⟨halt | _, m⟩
  · rw [Action.viewError_of_error h]
    rfl
  · rw [Action.viewError_of_ok h]
    rfl

/-- Programs that differ in their places have the same run, if one of them comes to its end. -/
theorem runFor_of_bare_eq {p q : Program} (same : p.bare = q.bare) {turns : Nat} {host : Host}
    {channels : Channels} (ended : (p.runFor turns host channels).1.halt = none) :
    q.runFor turns host channels = p.runFor turns host channels := by
  have both := (runFor_bare turns host p channels).symm.trans
    ((congrArg (·.runFor turns host channels) same).trans (runFor_bare turns host q channels))
  obtain ⟨reports, channels'⟩ := Prod.mk.inj both
  exact Prod.ext (Report.eq_of_bare_eq reports ended) channels'.symm

end Program

end Pseudocode

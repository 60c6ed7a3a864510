import Mathlib.Algebra.GroupWithZero.Nat
import Pseudocode.Proofs.Run.Budget
import Pseudocode.Proofs.Run.Script

/-!
# Runs one after another

An interpreter can run one program after another. Between runs it keeps the store and the steps of
the latest one, and the channels: the lines that are left and the place in the sequence of random
numbers. Only the channels make a difference to the next run, be the runs before complete or broken
off: a run is the one of a fresh interpreter that is given only the lines that are left, and the
sequence from the place where the runs before have left it.

The channels also count the lines that were written and wanted. These counts are what a failure or
an interruption of the host goes by, and nothing depends on them where there is none.
-/

namespace Pseudocode

/-- The host with its sequence of random numbers from the `r`-th on. -/
def Host.advanced (host : Host) (r : Nat) : Host :=
  { host with draws := fun n => host.draws (r + n) }

@[simp] theorem Host.advanced_maxSteps (host : Host) (r : Nat) :
    (host.advanced r).maxSteps = host.maxSteps := rfl

@[simp] theorem Host.advanced_failWrite (host : Host) (r : Nat) :
    (host.advanced r).failWrite = host.failWrite := rfl

@[simp] theorem Host.advanced_cancelWrite (host : Host) (r : Nat) :
    (host.advanced r).cancelWrite = host.cancelWrite := rfl

@[simp] theorem Host.advanced_cancelRead (host : Host) (r : Nat) :
    (host.advanced r).cancelRead = host.cancelRead := rfl

@[simp] theorem Host.advanced_deadline (host : Host) (r : Nat) :
    (host.advanced r).deadline = host.deadline := rfl

@[simp] theorem Host.advanced_turns (host : Host) (r : Nat) :
    (host.advanced r).turns = host.turns := rfl

theorem Channels.initial_canceled {host : Host} (uninterrupted : host.Uninterrupted)
    (input : Input) : (Channels.initial host input).canceled = false := by
  simp [Channels.initial, uninterrupted.write, uninterrupted.read]

namespace Action

variable {ε δ α β : Type} {r : Nat}

/-- The first action does with a sequence what the second does with the sequence from its `r`-th
element on. -/
def Shifts (r : Nat) (x x' : Action Nat ε α) : Prop := ∀ n, x (r + n) = ((x' n).1, r + (x' n).2)

namespace Shifts

theorem ofExcept (e : Except ε α) : Shifts r (ofExcept e) (ofExcept e) := fun _ => rfl

theorem pure (a : α) : Shifts (ε := ε) r (pure a) (pure a) := fun _ => rfl

theorem fail (e : ε) : Shifts (α := α) r (fail e) (fail e) := fun _ => rfl

theorem bind {x x' : Action Nat ε α} {f f' : α → Action Nat ε β} (first : Shifts r x x')
    (rest : ∀ a, Shifts r (f a) (f' a)) : Shifts r (x >>= f) (x' >>= f') := by
  intro n
  have here := first n
  rcases hx : x' n with ⟨e | a, n'⟩
  · rw [hx] at here
    rw [bind_of_error here, bind_of_error hx]
  · rw [hx] at here
    rw [bind_of_ok here, bind_of_ok hx]
    exact rest a n'

/-- An action on the whole of the state shifts as the action itself does. -/
theorem onPart {x x' : Action Nat δ α} (h : Shifts r x x') (wrap : δ → ε) :
    Shifts r (onPart id (fun n _ => n) wrap x) (onPart id (fun n _ => n) wrap x') := by
  intro n
  simp only [Action.onPart, id, h n]
  rcases x' n with ⟨e | a, n'⟩
  · rfl
  · rfl

end Shifts

end Action

open Pseudocode.Action (Shifts)

section Draws

variable (draws : Nat → Number) (r : Nat)

namespace Builtin

theorem shifts_draw : Shifts r (draw draws) (draw fun n => draws (r + n)) := fun _ => rfl

theorem shifts_numberArg (b : Builtin) (v : Value) : Shifts r (b.numberArg v) (b.numberArg v) := by
  cases v with
  | number n => exact .pure n
  | uninitialized | text | boolean | array | foreign => exact .fail _

theorem shifts_numberArgOr (b : Builtin) (default : Number) (v : Option Value) :
    Shifts r (b.numberArgOr default v) (b.numberArgOr default v) := by
  cases v with
  | none => exact .pure default
  | some v => exact shifts_numberArg r b v

/-- Two functions look at the sequence, and all others do not. -/
theorem shifts_apply (arrays : Arrays) (b : Builtin) (args : List Value) :
    Shifts r (b.apply draws arrays args) (b.apply (fun n => draws (r + n)) arrays args) := by
  unfold apply
  split
  · exact .bind (shifts_numberArg r _ _) fun _ => .pure _
  · refine .bind (shifts_numberArgOr r _ _ _) fun _ => ?_
    refine .bind (shifts_numberArgOr r _ _ _) fun _ => ?_
    exact .bind (shifts_draw draws r) fun _ => .pure _
  · refine .bind (shifts_numberArgOr r _ _ _) fun _ => ?_
    exact .bind (shifts_draw draws r) fun _ => .pure _
  · split
    · exact .pure _
    · exact .pure _
    · exact .fail _
  · exact .pure _
  · refine .bind (shifts_numberArg r _ _) fun _ => ?_
    exact .bind (shifts_numberArg r _ _) fun _ => .pure _
  · exact .pure _
  · exact .pure _
  · exact .fail _

end Builtin

variable (store : Store)

-- The recursion is that of expressions; only a call can make a draw.
mutual

theorem Expr.shifts_eval (e : Expr) :
    Shifts r (e.eval draws store) (e.eval (fun n => draws (r + n)) store) := by
  match e with
  | .text _ _ | .number _ _ | .boolean _ _ =>
    simp only [Expr.eval]
    exact .pure _
  | .name _ name =>
    simp only [Expr.eval]
    cases store.get? name with
    | none => exact .fail _
    | some v => exact .pure v
  | .unary _ _ operand =>
    simp only [Expr.eval]
    exact .bind (operand.shifts_eval) fun _ => .ofExcept _
  | .binary _ _ a b =>
    simp only [Expr.eval]
    exact .bind (a.shifts_eval) fun _ => .bind (b.shifts_eval) fun _ => .ofExcept _
  | .element _ _ index =>
    simp only [Expr.eval]
    refine .bind (.ofExcept _) fun _ => .bind (index.shifts_eval) fun _ => ?_
    exact .bind (.ofExcept _) fun _ => .pure _
  | .call loc function args =>
    simp only [Expr.eval]
    cases Builtin.ofName? function with
    | none => exact .fail _
    | some b =>
      refine .bind (shifts_evalAll args) fun vs => ?_
      simp only [Eval.call]
      split
      · exact .onPart (b.shifts_apply draws r store.arrays vs) _
      · exact .fail _

theorem shifts_evalAll (es : List Expr) :
    Shifts r (evalAll draws store es) (evalAll (fun n => draws (r + n)) store es) := by
  match es with
  | [] =>
    simp only [evalAll]
    exact .pure _
  | e :: rest =>
    simp only [evalAll]
    exact .bind (e.shifts_eval) fun _ => .bind (shifts_evalAll rest) fun _ => .pure _

end

end Draws

/-- Two machines are at the same point, and the first one is `r` draws further in its sequence. Both
have the same lines left, the last ones of `all`. -/
structure Machine.Abreast (all : List Text) (r : Nat) (m m' : Machine) : Prop where
  store : m.store = m'.store
  steps : m.steps = m'.steps
  log : m.log = m'.log
  input : ∃ rest, rest <:+ all ∧ m.channels.input = .lines rest ∧ m'.channels.input = .lines rest
  drawn : m.channels.drawn = r + m'.channels.drawn
  notCanceled : m.channels.canceled = false ∧ m'.channels.canceled = false

/-- Nothing stops either of the machines. -/
theorem Machine.Abreast.interruption?_eq_none {all : List Text} {r : Nat} {m m' : Machine}
    (abreast : Abreast all r m m') {host : Host} (uninterrupted : host.Uninterrupted) :
    Run.interruption? host m = none ∧ Run.interruption? (host.advanced r) m' = none := by
  obtain ⟨goes, goes'⟩ := abreast.notCanceled
  constructor
  · simp [Run.interruption?, goes, uninterrupted.time]
  · simp [Run.interruption?, goes', uninterrupted.time]

/-- From machines that are abreast two runs give the same answer, and leave the machines abreast. -/
def Run.Alike {α : Type} (all : List Text) (r : Nat) (x x' : Run α) : Prop :=
  ∀ ⦃m m'⦄, Machine.Abreast all r m m' →
    (x m).1 = (x' m').1 ∧ Machine.Abreast all r (x m).2 (x' m').2

namespace Run.Alike

variable {α β : Type} {all : List Text} {r : Nat} {host : Host} {loc : Option Location}

theorem pure (a : α) : Alike all r (pure a) (pure a) := fun _ _ abreast => ⟨rfl, abreast⟩

theorem bind {x x' : Run α} {f f' : α → Run β} (first : Alike all r x x')
    (rest : ∀ a, Alike all r (f a) (f' a)) : Alike all r (x >>= f) (x' >>= f') := by
  intro m m' abreast
  obtain ⟨same, later⟩ := first abreast
  rcases hx : x m with ⟨e | a, m₁⟩
  · rcases hx' : x' m' with ⟨e' | a', m₁'⟩
    · rw [hx, hx'] at same later
      cases same
      rw [Action.bind_of_error hx, Action.bind_of_error hx']
      exact ⟨rfl, later⟩
    · rw [hx, hx'] at same
      cases same
  · rcases hx' : x' m' with ⟨e' | a', m₁'⟩
    · rw [hx, hx'] at same
      cases same
    · rw [hx, hx'] at same later
      cases same
      rw [Action.bind_of_ok hx, Action.bind_of_ok hx']
      exact rest a later

theorem checkpoint (uninterrupted : host.Uninterrupted) :
    Alike all r (checkpoint host loc) (checkpoint (host.advanced r) loc) := by
  intro m m' abreast
  obtain ⟨goes, goes'⟩ := abreast.interruption?_eq_none uninterrupted
  simp only [Run.checkpoint, goes, goes', abreast.steps]
  by_cases limit : 0 < (host.advanced r).maxSteps ∧ (host.advanced r).maxSteps < m'.steps + 1
  · rw [if_pos limit, if_pos (by simpa using limit)]
    exact ⟨rfl, { abreast with steps := rfl }⟩
  · rw [if_neg limit, if_neg (by simpa using limit)]
    exact ⟨rfl, { abreast with steps := rfl }⟩

theorem evaluating {x x' : Store → Eval α} (h : ∀ store, Shifts r (x store) (x' store)) :
    Alike all r (evaluating x) (evaluating x') := by
  intro m m' abreast
  have shifted := h m'.store m'.channels.drawn
  simp only [Run.evaluating, abreast.store, abreast.drawn, shifted]
  rcases x' m'.store m'.channels.drawn with ⟨e | a, n⟩
  · exact ⟨rfl, { abreast with store := rfl, drawn := rfl }⟩
  · exact ⟨rfl, { abreast with store := rfl, drawn := rfl }⟩

theorem bindVariable {name : Text} {v : Value} :
    Alike all r (bindVariable loc name v) (bindVariable loc name v) := by
  intro m m' abreast
  simp only [Run.bindVariable, abreast.store]
  cases m'.store.set? name v with
  | none => exact ⟨rfl, abreast⟩
  | some store => exact ⟨rfl, { abreast with store := rfl }⟩

theorem update {f : Machine → Machine}
    (keeps : ∀ ⦃m m'⦄, Machine.Abreast all r m m' → Machine.Abreast all r (f m) (f m')) :
    Alike all r (Action.update f) (Action.update f) := fun _ _ abreast => ⟨rfl, keeps abreast⟩

theorem writeLine (uninterrupted : host.Uninterrupted) (works : host.failWrite = none)
    {line : Text} :
    Alike all r (writeLine host loc line) (writeLine (host.advanced r) loc line) := by
  intro m m' abreast
  obtain ⟨goes, goes'⟩ := abreast.notCanceled
  have written (n : Nat) : ¬ host.failWrite = some n := by simp [works]
  have quiet (n : Nat) : (host.cancelWrite == some n) = false := by simp [uninterrupted.write]
  simp only [Run.writeLine, Host.advanced_failWrite, Host.advanced_cancelWrite,
    if_neg (written _), goes, goes', quiet, abreast.log, Bool.or_false]
  exact ⟨trivial, { abreast with log := rfl, notCanceled := ⟨rfl, rfl⟩ }⟩

/-- Both read the first of the lines that are left, or find that there is none. -/
theorem readLine (uninterrupted : host.Uninterrupted) {name : Text} :
    Alike all r (readLine host loc name) (readLine (host.advanced r) loc name) := by
  intro m m' abreast
  obtain ⟨goes, goes'⟩ := abreast.notCanceled
  obtain ⟨stop, stop'⟩ := abreast.interruption?_eq_none uninterrupted
  obtain ⟨rest, left, input, input'⟩ := abreast.input
  have quiet (n : Nat) : (host.cancelRead == some n) = false := by simp [uninterrupted.read]
  simp only [Run.readLine, stop, stop', input, input', Input.readUnless, Input.promptUnless,
    Host.advanced_cancelRead, abreast.log, quiet, goes, goes', Bool.or_false]
  cases rest with
  | nil =>
    refine ⟨rfl, { abreast with log := rfl, input := ?_, notCanceled := ⟨rfl, rfl⟩ }⟩
    exact ⟨[], left, rfl, rfl⟩
  | cons line rest =>
    refine ⟨rfl, { abreast with log := rfl, input := ?_, notCanceled := ⟨rfl, rfl⟩ }⟩
    exact ⟨rest, (List.suffix_cons line rest).trans left, rfl, rfl⟩

end Run.Alike

/-- A host that goes on in its sequence does what a fresh one does with the rest of the sequence. -/
theorem Effect.alike_perform {α : Type} {all : List Text} {r : Nat} {host : Host}
    (uninterrupted : host.Uninterrupted) (works : host.failWrite = none) (effect : Effect α) :
    Run.Alike all r (effect.perform host) (effect.perform (host.advanced r)) := by
  cases effect with
  | checkpoint loc => exact .checkpoint uninterrupted
  | value e => exact .evaluating fun store => e.shifts_eval host.draws r store
  | bindVariable loc name v => exact .bindVariable
  | declaredSize loc name size =>
    refine .evaluating fun store => .bind (size.shifts_eval host.draws r store) fun v => ?_
    split
    · exact .fail _
    · exact .ofExcept _
  | bindArray name size =>
    exact .update fun m m' abreast => { abreast with store := by simp only [abreast.store] }
  | elementTarget loc name index e =>
    refine .evaluating fun store => .bind (.ofExcept _) fun _ => ?_
    refine .bind (index.shifts_eval host.draws r store) fun _ => .bind (.ofExcept _) fun _ => ?_
    exact .bind (e.shifts_eval host.draws r store) fun _ => .pure _
  | storeElement id slot v =>
    exact .update fun m m' abreast => { abreast with store := by simp only [abreast.store] }
  | printedLine exprs =>
    exact .evaluating fun store => .bind (shifts_evalAll host.draws r store exprs) fun _ => .pure _
  | writeLine loc line => exact .writeLine uninterrupted works
  | readLine loc name => exact .readLine uninterrupted

theorem Script.alike_run {α : Type} {all : List Text} {r : Nat} {host : Host}
    (uninterrupted : host.Uninterrupted) (works : host.failWrite = none) (x : Script α) :
    Run.Alike all r (x.run host) (x.run (host.advanced r)) := by
  induction x with
  | done a => exact .pure a
  | exhausted => exact fun _ _ abreast => ⟨rfl, abreast⟩
  | act effect next ih => exact (effect.alike_perform uninterrupted works).bind ih

/-- How many lines of a list are left. -/
def Input.linesLeft : Input → Nat
  | .lines rest => rest.length
  | .stream _ _ | .editor _ _ => 0

/-- One of several runs: what came of it, how many lines it took and how many draws it made. -/
structure Stint where
  report : Report
  lines : Nat
  draws : Nat

namespace Interpreter

/-- A run on an interpreter, with what it took from the channels. -/
def stint (host : Host) (p : Program) (it : Interpreter) : Stint where
  report := (it.run host p).1
  lines := it.channels.input.linesLeft - (it.run host p).2.channels.input.linesLeft
  draws := (it.run host p).2.channels.drawn - it.channels.drawn

/-- Runs one after another, each on the interpreter as the one before leaves it. -/
def stints (host : Host) : List Program → Interpreter → List Stint
  | [], _ => []
  | p :: rest, it => it.stint host p :: stints host rest (it.run host p).2

/-- A run depends on the channels alone. The interpreter keeps its store and its steps. -/
theorem run_eq (host : Host) (p : Program) (it : Interpreter) :
    it.run host p = ((p.run host it.channels).1,
      ⟨(p.run host it.channels).1.store, (p.run host it.channels).1.steps,
        (p.run host it.channels).2⟩) := by
  simp only [run, runFor, reset, Program.run, Program.runFor]
  rcases execBlock host host.turns p.body ⟨.empty, 0, #[], it.channels⟩ with ⟨halt | _, m⟩
  · rfl
  · rfl

end Interpreter

section Runs

variable {host : Host} (uninterrupted : host.Uninterrupted) (works : host.failWrite = none)
  {channels : Channels} {rest : List Text} (input : channels.input = .lines rest)
  (notCanceled : channels.canceled = false) (p : Program)
include uninterrupted works input notCanceled

/-- A run from any channels and the run of a fresh host report the same, and what the channels have
left afterwards differs only in what had been drawn before. -/
theorem Program.run_abreast :
    (p.run host channels).1 =
      (p.run (host.advanced channels.drawn) (.initial host (.lines rest))).1 ∧
    ∃ left, left <:+ rest ∧
      (p.run host channels).2.input = .lines left ∧
      (p.run (host.advanced channels.drawn) (.initial host (.lines rest))).2.input = .lines left ∧
      (p.run host channels).2.drawn = channels.drawn +
        (p.run (host.advanced channels.drawn) (.initial host (.lines rest))).2.drawn ∧
      (p.run host channels).2.canceled = false := by
  have start : Machine.Abreast rest channels.drawn ⟨.empty, 0, #[], channels⟩
      ⟨.empty, 0, #[], .initial host (.lines rest)⟩ :=
    { store := rfl
      steps := rfl
      log := rfl
      input := ⟨rest, List.suffix_rfl, input, rfl⟩
      drawn := rfl
      notCanceled := ⟨notCanceled, Channels.initial_canceled uninterrupted _⟩ }
  obtain ⟨answer, after⟩ := (p.script host.turns).alike_run uninterrupted works start
  obtain ⟨left, suffix, lines, lines'⟩ := after.input
  rw [run, run, Host.advanced_turns, runFor_eq_script, runFor_eq_script]
  constructor
  · simp only [Report.ofAnswer, answer, after.log, after.store, after.steps]
  · exact ⟨left, suffix, lines, lines', after.drawn, after.notCanceled.1⟩

end Runs

namespace Interpreter

section Runs

variable {host : Host} (uninterrupted : host.Uninterrupted) (works : host.failWrite = none)
  {it : Interpreter} {rest : List Text} (input : it.channels.input = .lines rest)
  (notCanceled : it.channels.canceled = false) (p : Program)
include uninterrupted works input notCanceled

/-- A run on any interpreter is the one that a fresh one has with what is left in the channels. -/
theorem stint_eq_fresh :
    it.stint host p =
      (initial host (.lines rest)).stint (host.advanced it.channels.drawn) p := by
  obtain ⟨report, left, -, lines, lines', drawn, -⟩ :=
    p.run_abreast uninterrupted works input notCanceled
  have none : (initial host (.lines rest)).channels.drawn = 0 := rfl
  have all : (initial host (.lines rest)).channels.input = .lines rest := rfl
  have channels : (initial host (.lines rest)).channels = .initial host (.lines rest) := rfl
  simp only [stint, run_eq, none, all]
  simp only [channels, report, lines, lines', drawn, input, Nat.add_sub_cancel_left, Nat.sub_zero]

/-- A run leaves the lines behind those it took, and has moved on in the sequence by the draws it
made. -/
theorem channels_run :
    (it.run host p).2.channels.input = .lines (rest.drop (it.stint host p).lines) ∧
    (it.run host p).2.channels.drawn = it.channels.drawn + (it.stint host p).draws ∧
    (it.run host p).2.channels.canceled = false := by
  obtain ⟨-, left, suffix, lines, -, drawn, goes⟩ :=
    p.run_abreast uninterrupted works input notCanceled
  simp only [stint, run_eq]
  refine ⟨?_, ?_, goes⟩
  · have dropped : left = rest.drop (rest.length - left.length) := List.suffix_iff_eq_drop.1 suffix
    rw [lines, input, Input.linesLeft, Input.linesLeft, ← dropped]
  · rw [drawn, Nat.add_sub_cancel_left]

theorem stints_from {ps : List Program} {i : Nat} (place : ps[i]? = some p) :
    (it.stints host ps)[i]? = some ((initial host
        (.lines (rest.drop (((it.stints host ps).take i).map Stint.lines).sum))).stint
      (host.advanced (it.channels.drawn + (((it.stints host ps).take i).map Stint.draws).sum))
      p) := by
  induction ps generalizing i it rest with
  | nil => cases place
  | cons q qs ih =>
    cases i with
    | zero =>
      obtain rfl : q = p := Option.some.inj place
      exact congrArg some (stint_eq_fresh uninterrupted works input notCanceled q)
    | succ i =>
      obtain ⟨lines, drawn, goes⟩ := channels_run uninterrupted works input notCanceled q
      have later := ih lines goes place
      rw [drawn] at later
      simp only [stints, List.getElem?_cons_succ, List.take_succ_cons, List.map_cons, List.sum_cons,
        later, List.drop_drop, Nat.add_assoc]

end Runs

/-- **Runs on one interpreter are independent.** Whatever the runs before did, and however they
ended, a run is the one of a fresh interpreter with the lines that they have left and with the
sequence of random numbers from where they have left it. It reports the same, takes as many lines
and makes as many draws. -/
theorem stint_independent {host : Host} (uninterrupted : host.Uninterrupted)
    (works : host.failWrite = none) (lines : List Text) (ps : List Program) {i : Nat} {p : Program}
    (place : ps[i]? = some p) :
    let runs := (initial host (.lines lines)).stints host ps
    let taken := ((runs.take i).map Stint.lines).sum
    let drawn := ((runs.take i).map Stint.draws).sum
    let fresh := host.advanced drawn
    runs[i]? = some ((initial fresh (.lines (lines.drop taken))).stint fresh p) := by
  intro runs taken drawn fresh
  have canceled := Channels.initial_canceled uninterrupted (.lines lines)
  have input : (initial host (.lines lines)).channels.input = .lines lines := rfl
  have here := stints_from uninterrupted works input canceled p place
  rw [show (initial host (.lines lines)).channels.drawn = 0 from rfl, Nat.zero_add] at here
  exact here

end Interpreter

/-- A program that draws a random number, and fails as it adds it to a line that it has read. -/
def Program.mismatch : Program :=
  ⟨"suma", [.read none [⟨none, "x"⟩],
    .print none [.binary none .sub (.call none "azar" []) (.name none "x")]]⟩

/-- A program that wants two lines. -/
def Program.twoLines : Program := ⟨"dos", [.read none [⟨none, "x"⟩, ⟨none, "y"⟩]]⟩

/-- The first program stops in the middle of an expression, with a line read and a number drawn. The
second one then finds one line, stops in the middle of its statement, and knows nothing of `x`. -/
theorem Interpreter.stint_independent_mismatch :
    let host : Host := { maxSteps := 9 }
    let lines : List Text := ["uno", "dos"]
    let runs := (initial host (.lines lines)).stints host [.mismatch, .twoLines]
    (runs.map fun run => (run.lines, run.draws)) = [(1, 1), (1, 0)] ∧
    (runs.map fun run => run.report.halt.isSome) = [true, true] ∧
    runs[1]? =
      some ((initial host (.lines ["dos"])).stint (host.advanced 1) .twoLines) := by
  intro host lines runs
  have taken : ((runs.take 1).map Stint.lines).sum = 1 := by decide +kernel
  have drawn : ((runs.take 1).map Stint.draws).sum = 1 := by decide +kernel
  have second : runs[1]? = some ((initial host
      (.lines (lines.drop ((runs.take 1).map Stint.lines).sum))).stint
      (host.advanced ((runs.take 1).map Stint.draws).sum) .twoLines) :=
    stint_independent ⟨rfl, rfl, rfl⟩ rfl lines [.mismatch, .twoLines] rfl
  rw [taken, drawn] at second
  exact ⟨by decide +kernel, by decide +kernel, second⟩

end Pseudocode

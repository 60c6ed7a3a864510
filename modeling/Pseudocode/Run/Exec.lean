import Pseudocode.Run.Eval
import Pseudocode.Value.Input

/-!
# Running a program

Before every statement and every turn of a loop there is a checkpoint: it stops a run that was
interrupted or whose time is up, and it counts, so that a run can be given a limit of steps.

A run is a function of the program, its host and its channels. The host is what does not change: the
limits, the sequence of random numbers, and the moments at which a channel fails or the run is
interrupted. The channels are what a later run on the same host goes on from: the input that is
left, and how much has been written, read and drawn. An interpreter also keeps what the latest run
has bound, until the next run starts.

Loops are counted down from `turns`, the only thing that could end a run without an answer. A run
with a limit of steps has fewer turns than that, since every turn passes a checkpoint.
-/

namespace Pseudocode

/-- What surrounds a run. A limit of zero steps is none. -/
structure Host where
  maxSteps : Nat := 0
  maxArraySize : Nat := 1048576
  draws : Nat → Number := fun _ => 0.5
  failWrite : Option Nat := none
  cancelWrite : Option Nat := none
  cancelRead : Option Nat := none
  deadline : Option Nat := none

/-- What goes on from run to run: the input that is left, how many lines were written and wanted,
how many random numbers were drawn, and whether the host was interrupted. -/
structure Channels where
  input : Input
  writes : Nat := 0
  reads : Nat := 0
  drawn : Nat := 0
  canceled : Bool := false
  deriving Repr

/-- The channels that a host starts with. -/
def Channels.initial (host : Host) (input : Input) : Channels where
  input
  canceled := host.cancelWrite == some 0 || host.cancelRead == some 0

/-- The state of a run. -/
structure Machine where
  store : Store
  steps : Nat
  log : Array Event
  channels : Channels

/-- Why a run stops before its end. -/
inductive Halt where
  | failed (error : RuntimeError)
  | exhausted
  deriving DecidableEq, Repr

/-- A part of a run. -/
abbrev Run := Action Machine Halt

namespace Run

/-- Fail at a place. -/
def fault {α : Type} (loc : Option Location) (f : Fault) : Run α := Action.fail (.failed ⟨loc, f⟩)

/-- Why the host wants the run to stop. -/
def interruption? (host : Host) (m : Machine) : Option ChannelError :=
  if m.channels.canceled then some .canceled
  else match host.deadline with
    | some steps => if steps ≤ m.steps then some .deadline else none
    | none => none

/-- Stop an interrupted run, count a step, and stop a run with too many. -/
def checkpoint (host : Host) (loc : Option Location) : Run Unit := fun m =>
  match interruption? host m with
  | some cause => (.error (.failed ⟨loc, .interrupted cause⟩), m)
  | none =>
    let steps := m.steps + 1
    if 0 < host.maxSteps ∧ host.maxSteps < steps then
      (.error (.failed ⟨loc, .stepLimit host.maxSteps⟩), { m with steps })
    else (.ok (), { m with steps })

/-- Do something that looks at the store and may draw random numbers. -/
def evaluating {α : Type} (x : Store → Eval α) : Run α := fun m =>
  match x m.store m.channels.drawn with
  | (.ok a, drawn) => (.ok a, { m with channels.drawn := drawn })
  | (.error e, drawn) => (.error (.failed e), { m with channels.drawn := drawn })

/-- The value of an expression. -/
def value (host : Host) (e : Expr) : Run Value := evaluating fun store => e.eval host.draws store

/-- Bind a variable, which must not be a constant. -/
def bindVariable (loc : Option Location) (name : Text) (v : Value) : Run Unit := fun m =>
  match m.store.set? name v with
  | some store => (.ok (), { m with store })
  | none => (.error (.failed ⟨loc, .constantAssigned name⟩), m)

/-- Write a line. -/
def writeLine (host : Host) (loc : Option Location) (line : Text) : Run Unit := fun m =>
  let writes := m.channels.writes + 1
  let channels := { m.channels with
    writes, canceled := m.channels.canceled || host.cancelWrite == some writes }
  if host.failWrite = some writes then
    (.error (.failed ⟨loc, .outputFailed .brokenPipe⟩), { m with channels })
  else (.ok (), { m with channels, log := m.log.push (.line line) })

/-- Read a line that is wanted for a variable. Nothing is read once the run is interrupted. -/
def readLine (host : Host) (loc : Option Location) (name : Text) : Run Text := fun m =>
  let stop := interruption? host m
  let reads := m.channels.reads + 1
  let (result, input) := m.channels.input.readUnless stop name
  let channels := { m.channels with
    input, reads, canceled := m.channels.canceled || host.cancelRead == some reads }
  let seen := match m.channels.input.promptUnless stop name with
    | some prompt => #[.request name, .prompt prompt]
    | none => #[.request name]
  let log := m.log ++ seen
  match result with
  | .ok line => (.ok line, { m with channels, log })
  | .error cause => (.error (.failed ⟨loc, .readFailed name cause⟩), { m with channels, log })

/-- Read a line into a variable. -/
def readInto (host : Host) (t : Target) : Run Unit := do
  let line ← readLine host t.loc t.name
  bindVariable t.loc t.name (Value.ofInput line)

/-- Read lines into variables, one after another. -/
def readAll (host : Host) : List Target → Run Unit
  | [] => pure ()
  | t :: rest => do
    readInto host t
    readAll host rest

/-- The number of elements that a value asks for. -/
def arraySize (host : Host) (store : Store) (name : Text) (size : Value) : Except Fault Nat :=
  match size with
  | .number n =>
    if n < 0 ∨ !n.isIntegral then .error (.invalidSize (store.textOf size) name)
    else if Number.ofNat host.maxArraySize < n then
      .error (.sizeLimit (store.textOf size) name host.maxArraySize)
    else .ok n.natPart
  | _ => .error (.invalidSize (store.textOf size) name)

/-- The size of an array about to be declared under a name that must be free. -/
def declaredSize (host : Host) (loc : Option Location) (name : Text) (size : Expr) (store : Store) :
    Eval Nat := do
  let v ← size.eval host.draws store
  if store.has name then Eval.fault loc (.alreadyExists name)
  else Eval.located loc (arraySize host store name v)

/-- Create an array and bind a name to it. -/
def bindArray (name : Text) (size : Nat) : Run Unit :=
  Action.update fun m =>
    let (arrays, v) := m.store.arrays.allocate (Array.replicate size .uninitialized)
    { m with store := ⟨m.store.bindings.insert name v, arrays⟩ }

/-- The array, the slot and the new value of an assignment to an element. -/
def elementTarget (host : Host) (loc : Option Location) (name : Text) (index value : Expr)
    (store : Store) : Eval (Nat × Nat × Value) := do
  let id ← Eval.located loc (Eval.arrayNamed store name)
  let i ← index.eval host.draws store
  let slot ← Eval.located loc (Eval.slotAt store name id i)
  let v ← value.eval host.draws store
  return (id, slot, v)

/-- Replace an element of an array. -/
def storeElement (id slot : Nat) (v : Value) : Run Unit :=
  Action.update fun m => { m with store.arrays := m.store.arrays.store id slot v }

/-- The line that the values of expressions make together. -/
def printedLine (host : Host) (exprs : List Expr) (store : Store) : Eval Text := do
  let vs ← evalAll host.draws store exprs
  return Text.concat (vs.map store.textOf)

/-- Take turns while `turn` says to go on. -/
def loop : (turns : Nat) → (turn : Run Bool) → Run Unit
  | 0, _ => fun m => (.error .exhausted, m)
  | turns + 1, turn => fun m =>
    match turn m with
    | (.ok true, m) => loop turns turn m
    | (.ok false, m) => (.ok (), m)
    | (.error e, m) => (.error e, m)

/-- Take turns with a counter that goes up by `step` while it is not above `last`. -/
def count (last step : Number) : (turns : Nat) → (turn : Number → Run Unit) → Number → Run Unit
  | 0, _ => fun _ m => (.error .exhausted, m)
  | turns + 1, turn => fun counter m =>
    if counter ≤ last then
      match turn counter m with
      | (.ok (), m) => count last step turns turn (counter + step) m
      | (.error e, m) => (.error e, m)
    else (.ok (), m)

end Run

mutual

/-- Execute a statement. -/
def Stmt.exec (host : Host) (turns : Nat) (s : Stmt) : Run Unit := do
  Run.checkpoint host s.loc
  match s with
  | .assign loc name e =>
    let v ← Run.value host e
    Run.bindVariable loc name v
  | .dimension loc name size =>
    let n ← Run.evaluating (Run.declaredSize host loc name size)
    Run.bindArray name n
  | .assignElement loc name index e =>
    let (id, slot, v) ← Run.evaluating (Run.elementTarget host loc name index e)
    Run.storeElement id slot v
  | .print loc exprs =>
    let line ← Run.evaluating (Run.printedLine host exprs)
    Run.writeLine host loc line
  | .read _ targets => Run.readAll host targets
  | .branch _ cond yes no =>
    let v ← Run.value host cond
    if v.truthy then execBlock host turns yes else execElse host turns no
  | .select _ subject cases otherwise =>
    let v ← Run.value host subject
    execCases host turns v cases (execBlock host turns otherwise)
  | .whileLoop loc cond body =>
    Run.loop turns do
      Run.checkpoint host loc
      let v ← Run.value host cond
      if v.truthy then
        execBlock host turns body
        return true
      else return false
  | .repeatLoop loc body cond =>
    Run.loop turns do
      Run.checkpoint host loc
      execBlock host turns body
      let v ← Run.value host cond
      return !v.truthy
  | .forLoop loc var first last step body =>
    Run.count last step turns (fun counter => do
      Run.checkpoint host loc
      Run.bindVariable loc var (.number counter)
      execBlock host turns body) first

/-- Execute statements one after another. -/
def execBlock (host : Host) (turns : Nat) : List Stmt → Run Unit
  | [] => pure ()
  | s :: rest => do
    s.exec host turns
    execBlock host turns rest

/-- Execute the second branch, if there is one. -/
def execElse (host : Host) (turns : Nat) : Option (List Stmt) → Run Unit
  | none => pure ()
  | some body => execBlock host turns body

/-- Execute the block of the first case whose label equals the subject, or else `otherwise`. Labels
after that one are not evaluated. -/
def execCases (host : Host) (turns : Nat) (subject : Value) :
    List (Expr × List Stmt) → Run Unit → Run Unit
  | [], otherwise => otherwise
  | (label, body) :: rest, otherwise => do
    let v ← Run.value host label
    if v.same subject then execBlock host turns body
    else execCases host turns subject rest otherwise

end

/-- What came of a run: what happened at its channels, its final store, the steps it took, and why
it stopped if it did not come to its end. -/
structure Report where
  log : Array Event
  store : Store
  steps : Nat
  halt : Option Halt

namespace Report

/-- The lines that were written. -/
def output (r : Report) : List Text := r.log.toList.filterMap Event.line?

/-- The variables that lines were wanted for. -/
def requests (r : Report) : List Text := r.log.toList.filterMap Event.request?

/-- The error that stopped the run. -/
def error? (r : Report) : Option RuntimeError :=
  match r.halt with
  | some (.failed e) => some e
  | _ => none

end Report

/-- How many turns each loop may take: more than a limited run can, and without a limit more than
can be taken. -/
def Host.turns (host : Host) : Nat := if host.maxSteps = 0 then Word.half else host.maxSteps + 2

/-- What runs programs one after another. It keeps the store and the steps of the latest run, and
the channels, on which every run goes on from where the one before has left them. -/
structure Interpreter where
  store : Store := .empty
  steps : Nat := 0
  channels : Channels

namespace Interpreter

/-- An interpreter that has run nothing yet. -/
def initial (host : Host) (input : Input) : Interpreter where
  channels := .initial host input

/-- The interpreter without the store and the steps of its latest run. -/
def reset (it : Interpreter) : Interpreter := { it with store := .empty, steps := 0 }

/-- Run a program for a number of turns. The interpreter is reset first. -/
def runFor (turns : Nat) (host : Host) (p : Program) (it : Interpreter) : Report × Interpreter :=
  let it := it.reset
  match execBlock host turns p.body ⟨it.store, it.steps, #[], it.channels⟩ with
  | (.ok (), m) => (⟨m.log, m.store, m.steps, none⟩, ⟨m.store, m.steps, m.channels⟩)
  | (.error halt, m) => (⟨m.log, m.store, m.steps, some halt⟩, ⟨m.store, m.steps, m.channels⟩)

/-- Run a program. -/
def run (host : Host) (p : Program) (it : Interpreter) : Report × Interpreter :=
  it.runFor host.turns host p

end Interpreter

/-- Run a program for a number of turns on an interpreter of its own, and give what is left of the
channels. -/
def Program.runFor (turns : Nat) (host : Host) (p : Program) (channels : Channels) :
    Report × Channels :=
  let (report, it) := Interpreter.runFor turns host p { channels }
  (report, it.channels)

/-- Run a program on an interpreter of its own. -/
def Program.run (host : Host) (p : Program) (channels : Channels) : Report × Channels :=
  p.runFor host.turns host channels

end Pseudocode

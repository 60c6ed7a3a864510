import Pseudocode.Run.Exec

/-!
# What a run does that its report leaves out

The report of a run has the lines that were written, but neither the values they were made from nor
the comparisons on the way. The trace of a run is the list of these, in order. It follows the run
and takes every intermediate state from it: what is observed after an action is observed in the
state that the action leaves.
-/

namespace Pseudocode

/-- Something observed in a run: two values that were compared by `=`, `<>` or a `Segun`, or the
values that an `Escribir` writes. -/
inductive Observation where
  | compared (a b : Value)
  | shown (values : List Value)
  deriving Repr

/-- What is observed in the course of an action and in what follows it. -/
def Action.observe {σ ε α ω : Type} (x : Action σ ε α) (during : σ → List ω)
    (after : α → σ → List ω) : σ → List ω := fun s =>
  during s ++ match x s with
    | (.ok a, s) => after a s
    | (.error _, _) => []

namespace BinaryOp

/-- Whether an operator compares values of any kinds. -/
def comparesKinds : BinaryOp → Bool
  | eq | ne => true
  | _ => false

end BinaryOp

mutual

/-- The values compared by evaluating an expression. -/
def Expr.comparisons (draws : Nat → Number) (store : Store) : Expr → Nat → List (Value × Value)
  | .text _ _ | .number _ _ | .boolean _ _ | .name _ _ => fun _ => []
  | .unary _ _ e => e.comparisons draws store
  | .binary _ op a b =>
    Action.observe (a.eval draws store) (a.comparisons draws store) fun lhs =>
      Action.observe (b.eval draws store) (b.comparisons draws store) fun rhs _ =>
        if op.comparesKinds then [(lhs, rhs)] else []
  | .element _ name index =>
    match Eval.arrayNamed store name with
    | .ok _ => index.comparisons draws store
    | .error _ => fun _ => []
  | .call _ name args =>
    match Builtin.ofName? name with
    | some _ => comparisonsOfAll draws store args
    | none => fun _ => []

/-- The values compared by evaluating expressions from left to right. -/
def comparisonsOfAll (draws : Nat → Number) (store : Store) :
    List Expr → Nat → List (Value × Value)
  | [] => fun _ => []
  | e :: rest =>
    Action.observe (e.eval draws store) (e.comparisons draws store) fun _ =>
      comparisonsOfAll draws store rest

end

namespace Run

/-- Nothing is observed. -/
def unobserved : Machine → List Observation := fun _ => []

/-- What is observed in an evaluation. -/
def evaluationTrace (x : Store → Nat → List (Value × Value)) : Machine → List Observation :=
  fun m => (x m.store m.channels.drawn).map fun (a, b) => .compared a b

/-- What is observed in the computation of a value. -/
def valueTrace (host : Host) (e : Expr) : Machine → List Observation :=
  evaluationTrace fun store => e.comparisons host.draws store

/-- The values compared by an assignment to an element. -/
def elementComparisons (host : Host) (name : Text) (index value : Expr) (store : Store) :
    Nat → List (Value × Value) :=
  match Eval.arrayNamed store name with
  | .error _ => fun _ => []
  | .ok id =>
    Action.observe (index.eval host.draws store) (index.comparisons host.draws store) fun i =>
      match Eval.slotAt store name id i with
      | .ok _ => value.comparisons host.draws store
      | .error _ => fun _ => []

/-- What is observed in the turns of a loop. -/
def loopTrace : (turns : Nat) → (turn : Run Bool) → (Machine → List Observation) →
    Machine → List Observation
  | 0, _, _ => unobserved
  | turns + 1, turn, during =>
    Action.observe turn during fun again =>
      if again then loopTrace turns turn during else unobserved

/-- What is observed in the turns of a loop with a counter. -/
def countTrace (last step : Number) : (turns : Nat) → (turn : Number → Run Unit) →
    (Number → Machine → List Observation) → Number → Machine → List Observation
  | 0, _, _ => fun _ => unobserved
  | turns + 1, turn, during => fun counter =>
    if counter ≤ last then
      Action.observe (turn counter) (during counter) fun _ =>
        countTrace last step turns turn during (counter + step)
    else unobserved

end Run

mutual

/-- What is observed in the execution of a statement. -/
def Stmt.trace (host : Host) (turns : Nat) (s : Stmt) : Machine → List Observation :=
  Action.observe (Run.checkpoint host s.loc) Run.unobserved fun _ =>
    match s with
    | .assign _ _ e => Run.valueTrace host e
    | .dimension _ _ size => Run.valueTrace host size
    | .assignElement _ name index e =>
      Run.evaluationTrace (Run.elementComparisons host name index e)
    | .print _ exprs =>
      Action.observe (Run.evaluating fun store => evalAll host.draws store exprs)
        (Run.evaluationTrace fun store => comparisonsOfAll host.draws store exprs)
        fun values _ => [.shown values]
    | .read _ _ => Run.unobserved
    | .branch _ cond yes no =>
      Action.observe (Run.value host cond) (Run.valueTrace host cond) fun v =>
        if v.truthy then traceBlock host turns yes else traceElse host turns no
    | .select _ subject cases otherwise =>
      Action.observe (Run.value host subject) (Run.valueTrace host subject) fun v =>
        traceCases host turns v cases (traceBlock host turns otherwise)
    | .whileLoop loc cond body =>
      Run.loopTrace turns
        (do
          Run.checkpoint host loc
          let v ← Run.value host cond
          if v.truthy then
            execBlock host turns body
            return true
          else return false)
        (Action.observe (Run.checkpoint host loc) Run.unobserved fun _ =>
          Action.observe (Run.value host cond) (Run.valueTrace host cond) fun v =>
            if v.truthy then traceBlock host turns body else Run.unobserved)
    | .repeatLoop loc body cond =>
      Run.loopTrace turns
        (do
          Run.checkpoint host loc
          execBlock host turns body
          let v ← Run.value host cond
          return !v.truthy)
        (Action.observe (Run.checkpoint host loc) Run.unobserved fun _ =>
          Action.observe (execBlock host turns body) (traceBlock host turns body) fun _ =>
            Run.valueTrace host cond)
    | .forLoop loc var first last step body =>
      Run.countTrace last step turns
        (fun counter => do
          Run.checkpoint host loc
          Run.bindVariable loc var (.number counter)
          execBlock host turns body)
        (fun counter =>
          Action.observe (Run.checkpoint host loc) Run.unobserved fun _ =>
            Action.observe (Run.bindVariable loc var (.number counter)) Run.unobserved fun _ =>
              traceBlock host turns body) first

/-- What is observed in the execution of statements one after another. -/
def traceBlock (host : Host) (turns : Nat) : List Stmt → Machine → List Observation
  | [] => Run.unobserved
  | s :: rest =>
    Action.observe (s.exec host turns) (s.trace host turns) fun _ => traceBlock host turns rest

/-- What is observed in the execution of the second branch. -/
def traceElse (host : Host) (turns : Nat) : Option (List Stmt) → Machine → List Observation
  | none => Run.unobserved
  | some body => traceBlock host turns body

/-- What is observed in the choice of a case and the execution of its block. -/
def traceCases (host : Host) (turns : Nat) (subject : Value) :
    List (Expr × List Stmt) → (Machine → List Observation) → Machine → List Observation
  | [], otherwise => otherwise
  | (label, body) :: rest, otherwise =>
    Action.observe (Run.value host label) (Run.valueTrace host label) fun v m =>
      .compared v subject ::
        (if v.same subject then traceBlock host turns body
         else traceCases host turns subject rest otherwise) m

end

/-- What is observed in a run of a program for a number of turns. -/
def Program.trace (turns : Nat) (host : Host) (p : Program) (channels : Channels) :
    List Observation :=
  traceBlock host turns p.body ⟨.empty, 0, #[], channels⟩

end Pseudocode

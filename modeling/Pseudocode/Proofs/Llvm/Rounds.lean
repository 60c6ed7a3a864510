import Pseudocode.Proofs.Llvm.Machine
import Pseudocode.Proofs.Run.Trace

/-!
# The rounds of loops with counters

The rounds of a run are those of its loops with counters, in order, each with its counter. A loop is
named by the block that its body begins with in the code. Lowering gives out labels in the order of
the text, so the label follows from the number of labels that were given out before the loop.
-/

namespace Pseudocode

open Llvm

mutual

/-- How many labels the code of a statement has. -/
def Stmt.labels : Stmt → Nat
  | .branch _ _ yes no => 3 + labelsOfBlock yes + labelsOfElse no
  | .select _ _ cases otherwise => 1 + labelsOfCases cases + labelsOfBlock otherwise
  | .whileLoop _ _ body | .forLoop _ _ _ _ _ body => 3 + labelsOfBlock body
  | .repeatLoop _ body _ => 2 + labelsOfBlock body
  | .assign _ _ _ | .dimension _ _ _ | .assignElement _ _ _ _ | .print _ _ | .read _ _ => 0

/-- How many labels the code of a block has. -/
def labelsOfBlock : List Stmt → Nat
  | [] => 0
  | s :: rest => s.labels + labelsOfBlock rest

/-- How many labels the code of the second branch has. -/
def labelsOfElse : Option (List Stmt) → Nat
  | none => 0
  | some body => labelsOfBlock body

/-- How many labels the code of cases has. -/
def labelsOfCases : List (Expr × List Stmt) → Nat
  | [] => 0
  | (_, body) :: rest => 2 + labelsOfBlock body + labelsOfCases rest

end

namespace Run

/-- There are no rounds. -/
def noRounds : Machine → List Round := fun _ => []

/-- The rounds in the turns of a loop. -/
def loopRounds : (turns : Nat) → (turn : Run Bool) → (Machine → List Round) →
    Machine → List Round
  | 0, _, _ => noRounds
  | turns + 1, turn, during =>
    Action.observe turn during fun again =>
      if again then loopRounds turns turn during else noRounds

/-- The rounds in the turns of a loop with a counter. -/
def countRounds (last step : Number) : (turns : Nat) → (turn : Number → Run Unit) →
    (Number → Machine → List Round) → Number → Machine → List Round
  | 0, _, _ => fun _ => noRounds
  | turns + 1, turn, during => fun counter =>
    if counter ≤ last then
      Action.observe (turn counter) (during counter) fun _ =>
        countRounds last step turns turn during (counter + step)
    else noRounds

end Run

mutual

/-- The rounds in the execution of a statement before which some labels were given out. -/
def Stmt.rounds (host : Host) (turns : Nat) (s : Stmt) (given : Nat) : Machine → List Round :=
  Action.observe (Run.checkpoint host s.loc) Run.noRounds fun _ =>
    match s with
    | .branch _ cond yes no =>
      Action.observe (Run.value host cond) Run.noRounds fun v =>
        if v.truthy then roundsOfBlock host turns yes (given + 3)
        else roundsOfElse host turns no (given + 3 + labelsOfBlock yes)
    | .select _ subject cases otherwise =>
      Action.observe (Run.value host subject) Run.noRounds fun v =>
        roundsOfCases host turns v cases (given + 1)
          (roundsOfBlock host turns otherwise (given + 1 + labelsOfCases cases))
    | .whileLoop loc cond body =>
      Run.loopRounds turns
        (do
          Run.checkpoint host loc
          let v ← Run.value host cond
          if v.truthy then
            execBlock host turns body
            return true
          else return false)
        (Action.observe (Run.checkpoint host loc) Run.noRounds fun _ =>
          Action.observe (Run.value host cond) Run.noRounds fun v =>
            if v.truthy then roundsOfBlock host turns body (given + 3) else Run.noRounds)
    | .repeatLoop loc body cond =>
      Run.loopRounds turns
        (do
          Run.checkpoint host loc
          execBlock host turns body
          let v ← Run.value host cond
          return !v.truthy)
        (Action.observe (Run.checkpoint host loc) Run.noRounds fun _ =>
          Action.observe (execBlock host turns body) (roundsOfBlock host turns body (given + 2))
            fun _ => Run.noRounds)
    | .forLoop loc var first last step body =>
      Run.countRounds last step turns
        (fun counter => do
          Run.checkpoint host loc
          Run.bindVariable loc var (.number counter)
          execBlock host turns body)
        (fun counter =>
          Action.observe (Run.checkpoint host loc) Run.noRounds fun _ =>
            Action.observe (Run.bindVariable loc var (.number counter)) Run.noRounds fun _ m =>
              ⟨.numbered .forBody (given + 1), var, counter⟩ ::
                roundsOfBlock host turns body (given + 3) m) first
    | .assign _ _ _ | .dimension _ _ _ | .assignElement _ _ _ _ | .print _ _ | .read _ _ =>
      Run.noRounds

/-- The rounds in the execution of statements one after another. -/
def roundsOfBlock (host : Host) (turns : Nat) : List Stmt → Nat → Machine → List Round
  | [], _ => Run.noRounds
  | s :: rest, given =>
    Action.observe (s.exec host turns) (s.rounds host turns given) fun _ =>
      roundsOfBlock host turns rest (given + s.labels)

/-- The rounds in the execution of the second branch. -/
def roundsOfElse (host : Host) (turns : Nat) : Option (List Stmt) → Nat → Machine → List Round
  | none, _ => Run.noRounds
  | some body, given => roundsOfBlock host turns body given

/-- The rounds in the block of the case that is chosen. -/
def roundsOfCases (host : Host) (turns : Nat) (subject : Value) :
    List (Expr × List Stmt) → Nat → (Machine → List Round) → Machine → List Round
  | [], _, otherwise => otherwise
  | (label, body) :: rest, given, otherwise =>
    Action.observe (Run.value host label) Run.noRounds fun v =>
      if v.same subject then roundsOfBlock host turns body (given + 2)
      else roundsOfCases host turns subject rest (given + 2 + labelsOfBlock body) otherwise

end

/-- The rounds in a run of a program for a number of turns. The first label of its code is that of
the block that the entry leads to. -/
def Program.rounds (turns : Nat) (host : Host) (p : Program) (channels : Channels) : List Round :=
  roundsOfBlock host turns p.body 1 ⟨.empty, 0, #[], channels⟩

end Pseudocode

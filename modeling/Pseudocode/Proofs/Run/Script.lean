import Pseudocode.Proofs.Run.Turns

/-!
# A run as a tree of effects

What a program does next depends only on the answers it has got so far. The script of a program is
the tree of these choices: at each node an effect is asked for, and there is a branch for every
answer. The script does not know the host, and a run is the walk through it that one host's answers
select.

So a fact about all runs is a fact about trees with three kinds of node, and two runs of one program
on different hosts are walks through the same tree. The states on the way, which a report leaves
out, are those after each effect.
-/

namespace Pseudocode

/-- What a statement asks for, by the type of the answer. -/
inductive Effect : Type → Type where
  | checkpoint (loc : Option Location) : Effect Unit
  | value (e : Expr) : Effect Value
  | bindVariable (loc : Option Location) (name : Text) (v : Value) : Effect Unit
  | declaredSize (loc : Option Location) (name : Text) (size : Expr) : Effect Nat
  | bindArray (name : Text) (size : Nat) : Effect Unit
  | elementTarget (loc : Option Location) (name : Text) (index value : Expr) :
      Effect (Nat × Nat × Value)
  | storeElement (id slot : Nat) (v : Value) : Effect Unit
  | printedLine (exprs : List Expr) : Effect Text
  | writeLine (loc : Option Location) (line : Text) : Effect Unit
  | readLine (loc : Option Location) (name : Text) : Effect Text

/-- Have an effect on a host. -/
def Effect.perform (host : Host) {α : Type} : Effect α → Run α
  | checkpoint loc => Run.checkpoint host loc
  | value e => Run.value host e
  | bindVariable loc name v => Run.bindVariable loc name v
  | declaredSize loc name size => Run.evaluating (Run.declaredSize host loc name size)
  | bindArray name size => Run.bindArray name size
  | elementTarget loc name index e => Run.evaluating (Run.elementTarget host loc name index e)
  | storeElement id slot v => Run.storeElement id slot v
  | printedLine exprs => Run.evaluating (Run.printedLine host exprs)
  | writeLine loc line => Run.writeLine host loc line
  | readLine loc name => Run.readLine host loc name

/-- A tree of effects. It ends with a value, or where no turns are left. -/
inductive Script (α : Type) : Type 1 where
  | done (a : α)
  | exhausted
  | act {β : Type} (effect : Effect β) (next : β → Script α)

namespace Script

variable {α β : Type}

/-- One script after another. -/
protected def bind : Script α → (α → Script β) → Script β
  | done a, f => f a
  | exhausted, _ => exhausted
  | act effect next, f => act effect fun b => (next b).bind f

instance : Monad Script where
  pure := done
  bind := Script.bind

/-- A single effect. -/
def perform (effect : Effect α) : Script α := act effect done

/-- Take turns while `turn` says to go on. -/
def loop : (turns : Nat) → (turn : Script Bool) → Script Unit
  | 0, _ => exhausted
  | turns + 1, turn => turn >>= fun again => if again then loop turns turn else pure ()

/-- Take turns with a counter that goes up by `step` while it is not above `last`. -/
def count (last step : Number) :
    (turns : Nat) → (turn : Number → Script Unit) → Number → Script Unit
  | 0, _, _ => exhausted
  | turns + 1, turn, counter =>
    if counter ≤ last then
      turn counter >>= fun _ => count last step turns turn (counter + step)
    else pure ()

/-- Read a line into a variable. -/
def readInto (t : Target) : Script Unit :=
  act (.readLine t.loc t.name) fun line =>
    perform (.bindVariable t.loc t.name (Value.ofInput line))

/-- Read lines into variables, one after another. -/
def readAll : List Target → Script Unit
  | [] => pure ()
  | t :: rest => readInto t >>= fun _ => readAll rest

end Script

mutual

/-- The effects of a statement. -/
def Stmt.script (turns : Nat) (s : Stmt) : Script Unit :=
  .act (.checkpoint s.loc) fun _ =>
    match s with
    | .assign loc name e => .act (.value e) fun v => .perform (.bindVariable loc name v)
    | .dimension loc name size =>
      .act (.declaredSize loc name size) fun n => .perform (.bindArray name n)
    | .assignElement loc name index e =>
      .act (.elementTarget loc name index e) fun r => .perform (.storeElement r.1 r.2.1 r.2.2)
    | .print loc exprs => .act (.printedLine exprs) fun line => .perform (.writeLine loc line)
    | .read _ targets => .readAll targets
    | .branch _ cond yes no =>
      .act (.value cond) fun v => if v.truthy then scriptBlock turns yes else scriptElse turns no
    | .select _ subject cases otherwise =>
      .act (.value subject) fun v => scriptCases turns v cases (scriptBlock turns otherwise)
    | .whileLoop loc cond body =>
      .loop turns (.act (.checkpoint loc) fun _ => .act (.value cond) fun v =>
        if v.truthy then scriptBlock turns body >>= fun _ => pure true else pure false)
    | .repeatLoop loc body cond =>
      .loop turns (.act (.checkpoint loc) fun _ => scriptBlock turns body >>= fun _ =>
        .act (.value cond) fun v => pure !v.truthy)
    | .forLoop loc var first last step body =>
      .count last step turns (fun counter => .act (.checkpoint loc) fun _ =>
        .act (.bindVariable loc var (.number counter)) fun _ => scriptBlock turns body) first

/-- The effects of statements one after another. -/
def scriptBlock (turns : Nat) : List Stmt → Script Unit
  | [] => pure ()
  | s :: rest => s.script turns >>= fun _ => scriptBlock turns rest

/-- The effects of the second branch, if there is one. -/
def scriptElse (turns : Nat) : Option (List Stmt) → Script Unit
  | none => pure ()
  | some body => scriptBlock turns body

/-- The effects of choosing a case and of its block. -/
def scriptCases (turns : Nat) (subject : Value) :
    List (Expr × List Stmt) → Script Unit → Script Unit
  | [], otherwise => otherwise
  | (label, body) :: rest, otherwise =>
    .act (.value label) fun v =>
      if v.same subject then scriptBlock turns body
      else scriptCases turns subject rest otherwise

end

/-- An effect that a run has had: the answer to it, and the state after it. -/
structure Occurrence where
  {α : Type}
  effect : Effect α
  answer : Except Halt α
  after : Machine

namespace Script

variable {α β : Type} (host : Host)

/-- Walk through a script with the answers of a host. -/
def run : Script α → Run α
  | done a => pure a
  | exhausted => Action.fail .exhausted
  | act effect next => effect.perform host >>= fun b => (next b).run

/-- The effects of the walk, in order. -/
def history : Script α → Machine → List Occurrence
  | done _, _ => []
  | exhausted, _ => []
  | act effect next, m =>
    match effect.perform host m with
    | (.ok b, m') => ⟨effect, .ok b, m'⟩ :: (next b).history m'
    | (.error halt, m') => [⟨effect, .error halt, m'⟩]

@[simp] theorem run_act (effect : Effect β) (next : β → Script α) :
    (act effect next).run host = effect.perform host >>= fun b => (next b).run host := rfl

theorem run_bind (x : Script α) (f : α → Script β) :
    (x >>= f).run host = x.run host >>= fun a => (f a).run host := by
  induction x with
  | done a => rfl
  | exhausted => rfl
  | act effect next ih =>
    funext m
    change (effect.perform host >>= fun b => (next b >>= f).run host) m =
      ((effect.perform host >>= fun b => (next b).run host) >>= fun a => (f a).run host) m
    rcases h : effect.perform host m with ⟨e | b, m'⟩
    · rw [Action.bind_of_error h, Action.bind_of_error (Action.bind_of_error h)]
    · rw [Action.bind_of_ok h, ih b, Action.bind_apply, Action.bind_apply, Action.bind_of_ok h]

@[simp] theorem run_perform (effect : Effect α) :
    (perform effect).run host = effect.perform host := by
  funext m
  change (effect.perform host >>= fun a => pure a) m = effect.perform host m
  rcases h : effect.perform host m with ⟨e | a, m'⟩
  · rw [Action.bind_of_error h]
  · rw [Action.bind_of_ok h]
    rfl

theorem run_loop (turns : Nat) (turn : Script Bool) :
    (loop turns turn).run host = Run.loop turns (turn.run host) := by
  induction turns with
  | zero => rfl
  | succ turns ih =>
    rw [loop, run_bind, Run.loop_succ]
    congr 1
    funext again
    cases again with
    | true => exact ih
    | false => rfl

theorem run_count (last step : Number) (turns : Nat) (turn : Number → Script Unit)
    (first : Number) :
    (count last step turns turn first).run host =
      Run.count last step turns (fun counter => (turn counter).run host) first := by
  induction turns generalizing first with
  | zero => rfl
  | succ turns ih =>
    rw [count, Run.count_succ]
    split
    · rw [run_bind]
      congr 1
      funext _
      exact ih _
    · rfl

theorem run_readAll (targets : List Target) :
    (readAll targets).run host = Run.readAll host targets := by
  induction targets with
  | nil => rfl
  | cons t rest ih =>
    rw [readAll, run_bind, Run.readAll, ih, readInto, run_act]
    simp only [run_perform]
    rfl

variable {host} {m : Machine}

theorem history_act_of_ok {β : Type} {effect : Effect β} {next : β → Script α} {b : β}
    {m' : Machine} (h : effect.perform host m = (.ok b, m')) :
    (act effect next).history host m = ⟨effect, .ok b, m'⟩ :: (next b).history host m' := by
  simp only [history, h]

theorem history_act_of_error {β : Type} {effect : Effect β} {next : β → Script α} {halt : Halt}
    {m' : Machine} (h : effect.perform host m = (.error halt, m')) :
    (act effect next).history host m = [⟨effect, .error halt, m'⟩] := by
  simp only [history, h]

theorem run_act_of_ok {β : Type} {effect : Effect β} {next : β → Script α} {b : β}
    {m' : Machine} (h : effect.perform host m = (.ok b, m')) :
    (act effect next).run host m = (next b).run host m' := Action.bind_of_ok h

theorem run_act_of_error {β : Type} {effect : Effect β} {next : β → Script α} {halt : Halt}
    {m' : Machine} (h : effect.perform host m = (.error halt, m')) :
    (act effect next).run host m = (.error halt, m') := Action.bind_of_error h

end Script

-- Executing a program is walking through its script; the recursion is that of the program.
mutual

theorem Stmt.run_script (host : Host) (turns : Nat) (s : Stmt) :
    (s.script turns).run host = s.exec host turns := by
  rw [Stmt.script.eq_def, Stmt.exec.eq_def, Script.run_act]
  change Run.checkpoint host s.loc >>= _ = _
  congr 1
  funext _
  match s with
  | .assign loc name e => simp only [Script.run_act, Script.run_perform]; rfl
  | .dimension loc name size => simp only [Script.run_act, Script.run_perform]; rfl
  | .assignElement loc name index e => simp only [Script.run_act, Script.run_perform]; rfl
  | .print loc exprs => simp only [Script.run_act, Script.run_perform]; rfl
  | .read loc targets => exact Script.run_readAll host targets
  | .branch loc cond yes no =>
    rw [Script.run_act]
    refine congrArg (Run.value host cond >>= ·) (funext fun v => ?_)
    cases v.truthy with
    | true => exact run_scriptBlock host turns yes
    | false => exact run_scriptElse host turns no
  | .select loc subject cases otherwise =>
    rw [Script.run_act]
    refine congrArg (Run.value host subject >>= ·) (funext fun v => ?_)
    exact run_scriptCases host turns v cases (run_scriptBlock host turns otherwise)
  | .whileLoop loc cond body =>
    rw [Script.run_loop]
    congr 1
    refine congrArg (Run.checkpoint host loc >>= ·) (funext fun _ => ?_)
    refine congrArg (Run.value host cond >>= ·) (funext fun v => ?_)
    dsimp only
    cases v.truthy with
    | true =>
      rw [if_pos rfl, if_pos rfl, Script.run_bind, run_scriptBlock host turns body]
      rfl
    | false => rfl
  | .repeatLoop loc body cond =>
    rw [Script.run_loop]
    congr 1
    refine congrArg (Run.checkpoint host loc >>= ·) (funext fun _ => ?_)
    rw [Script.run_bind, run_scriptBlock host turns body]
    rfl
  | .forLoop loc var first last step body =>
    rw [Script.run_count]
    congr 1
    funext counter
    refine congrArg (Run.checkpoint host loc >>= ·) (funext fun _ => ?_)
    refine congrArg (Run.bindVariable loc var (.number counter) >>= ·) (funext fun _ => ?_)
    exact run_scriptBlock host turns body

theorem run_scriptBlock (host : Host) (turns : Nat) (ss : List Stmt) :
    (scriptBlock turns ss).run host = execBlock host turns ss := by
  match ss with
  | [] =>
    rw [scriptBlock, execBlock]
    rfl
  | s :: rest =>
    rw [scriptBlock, execBlock, Script.run_bind, s.run_script host turns]
    refine congrArg (s.exec host turns >>= ·) (funext fun _ => ?_)
    exact run_scriptBlock host turns rest

theorem run_scriptElse (host : Host) (turns : Nat) (no : Option (List Stmt)) :
    (scriptElse turns no).run host = execElse host turns no := by
  match no with
  | none =>
    rw [scriptElse, execElse]
    rfl
  | some body =>
    rw [scriptElse, execElse]
    exact run_scriptBlock host turns body

theorem run_scriptCases (host : Host) (turns : Nat) (subject : Value)
    (labels : List (Expr × List Stmt)) {other : Script Unit} {otherwise : Run Unit}
    (h : other.run host = otherwise) :
    (scriptCases turns subject labels other).run host =
      execCases host turns subject labels otherwise := by
  match labels with
  | [] =>
    rw [scriptCases, execCases]
    exact h
  | (label, body) :: rest =>
    rw [scriptCases, execCases, Script.run_act]
    refine congrArg (Run.value host label >>= ·) (funext fun v => ?_)
    cases v.same subject with
    | true => exact run_scriptBlock host turns body
    | false => exact run_scriptCases host turns subject rest h

end

namespace Program

/-- The effects of a program. -/
def script (turns : Nat) (p : Program) : Script Unit := scriptBlock turns p.body

/-- The effects that a run of a program has, in order. -/
def history (turns : Nat) (host : Host) (p : Program) (channels : Channels) : List Occurrence :=
  (p.script turns).history host ⟨.empty, 0, #[], channels⟩

theorem runFor_eq_script (turns : Nat) (host : Host) (p : Program) (channels : Channels) :
    p.runFor turns host channels =
      Report.ofAnswer ((p.script turns).run host ⟨.empty, 0, #[], channels⟩) := by
  rw [runFor_eq, script, run_scriptBlock]

/-- A run has an error where the walk through its script stops with it. -/
theorem exists_run_of_error? {turns : Nat} {host : Host} {p : Program} {channels : Channels}
    {e : RuntimeError} (failed : (p.runFor turns host channels).1.error? = some e) :
    ∃ m, (p.script turns).run host ⟨.empty, 0, #[], channels⟩ = (.error (.failed e), m) := by
  rw [runFor_eq_script] at failed
  rcases ran : (p.script turns).run host ⟨.empty, 0, #[], channels⟩ with ⟨halt | _, m⟩
  · rw [ran] at failed
    cases halt with
    | failed e' =>
      cases failed
      exact ⟨m, rfl⟩
    | exhausted => cases failed
  · rw [ran] at failed
    cases failed

end Program

end Pseudocode

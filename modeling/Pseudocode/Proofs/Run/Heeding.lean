import Pseudocode.Proofs.Run.Script

/-!
# Between two checkpoints

A run that is interrupted goes on until it next looks whether it was. What it can do until then is
seen from the shape of its script. `Quiet` says that nothing but evaluations comes before the first
effect that heeds an interruption, and `Orderly` that every write and every read is followed by a
quiet script.

With more turns a script goes on where it had none left, and it does so quietly.
-/

namespace Pseudocode

namespace Effect

variable {α : Type}

/-- Whether an effect looks whether the host was interrupted. -/
def heeds : Effect α → Bool
  | checkpoint _ | readLine _ _ => true
  | _ => false

/-- Whether an effect changes nothing but the number of random numbers drawn. -/
def evaluates : Effect α → Bool
  | value _ | declaredSize _ _ _ | elementTarget _ _ _ _ | printedLine _ => true
  | _ => false

end Effect

namespace Script

variable {α β : Type}

/-- Nothing but evaluations comes before the first effect that heeds an interruption, and turns run
out before it only where `mayRunOut`. -/
def Quiet (mayRunOut : Prop) : Script α → Prop
  | done _ => True
  | exhausted => mayRunOut
  | act effect next =>
    effect.heeds = true ∨ (effect.evaluates = true ∧ ∀ b, (next b).Quiet mayRunOut)

/-- What comes after a write is quiet, and what comes after a read is once the line is stored. -/
def SettledBy (next : β → Script α) : Effect β → Prop
  | .writeLine _ _ => ∀ b, (next b).Quiet True
  | .readLine loc name => ∀ line, ∃ rest,
      next line = act (.bindVariable loc name (.ofInput line)) rest ∧ (rest ()).Quiet True
  | _ => True

/-- Every write and every read in a script is followed by a quiet script. -/
def Orderly : Script α → Prop
  | done _ => True
  | exhausted => True
  | act effect next => SettledBy next effect ∧ ∀ b, (next b).Orderly

theorem Quiet.bind {mayRunOut : Prop} {x : Script α} {f : α → Script β} (first : x.Quiet mayRunOut)
    (rest : ∀ a, (f a).Quiet mayRunOut) : (x >>= f).Quiet mayRunOut := by
  induction x with
  | done a => exact rest a
  | exhausted => exact first
  | act effect next ih =>
    rcases first with heeds | ⟨evaluates, quiet⟩
    · exact .inl heeds
    · exact .inr ⟨evaluates, fun b => ih b (quiet b)⟩

theorem Orderly.bind {x : Script α} {f : α → Script β} (first : x.Orderly)
    (rest : ∀ a, (f a).Orderly) (quiet : ∀ a, (f a).Quiet True) : (x >>= f).Orderly := by
  induction x with
  | done a => exact rest a
  | exhausted => exact first
  | act effect next ih =>
    obtain ⟨settled, orderly⟩ := first
    refine ⟨?_, fun b => ih b (orderly b)⟩
    cases effect with
    | writeLine => exact fun b => (settled b).bind quiet
    | readLine loc name =>
      intro line
      obtain ⟨after, stored, quietAfter⟩ := settled line
      refine ⟨fun u => after u >>= f, ?_, quietAfter.bind quiet⟩
      change next line >>= f = _
      rw [stored]
      rfl
    | _ => trivial

theorem quiet_readAll {mayRunOut : Prop} (targets : List Target) :
    (readAll targets).Quiet mayRunOut := by
  cases targets with
  | nil => trivial
  | cons t rest => exact .inl rfl

theorem orderly_readAll (targets : List Target) : (readAll targets).Orderly := by
  induction targets with
  | nil => trivial
  | cons t rest ih =>
    refine Orderly.bind ?_ (fun _ => ih) fun _ => quiet_readAll rest
    refine ⟨fun line => ⟨_, rfl, trivial⟩, fun line => ⟨trivial, fun _ => trivial⟩⟩

section Loops

variable {mayRunOut : Prop} {turns : Nat} {loc : Option Location}

theorem quiet_loop (enough : 0 < turns ∨ mayRunOut) (next : Unit → Script Bool) :
    (loop turns (act (.checkpoint loc) next)).Quiet mayRunOut := by
  cases turns with
  | zero => exact enough.resolve_left (Nat.lt_irrefl 0)
  | succ turns => exact .inl rfl

theorem quiet_count (enough : 0 < turns ∨ mayRunOut) (last step first : Number)
    (next : Number → Unit → Script Unit) :
    (count last step turns (fun counter => act (.checkpoint loc) (next counter)) first).Quiet
      mayRunOut := by
  cases turns with
  | zero => exact enough.resolve_left (Nat.lt_irrefl 0)
  | succ turns =>
    rw [count]
    split
    · exact .inl rfl
    · trivial

theorem orderly_loop {next : Unit → Script Bool} (h : (next ()).Orderly) (turns : Nat) :
    (loop turns (act (.checkpoint loc) next)).Orderly := by
  induction turns with
  | zero => trivial
  | succ turns ih =>
    have turn : (act (.checkpoint loc) next).Orderly := ⟨trivial, fun _ => h⟩
    refine turn.bind (fun again => ?_) fun again => ?_
    · cases again with
      | true => exact ih
      | false => trivial
    · cases again with
      | true => exact quiet_loop (.inr trivial) next
      | false => trivial

theorem orderly_count {next : Number → Unit → Script Unit}
    (h : ∀ counter, (next counter ()).Orderly) (last step : Number) (turns : Nat)
    (first : Number) :
    (count last step turns (fun counter => act (.checkpoint loc) (next counter))
      first).Orderly := by
  induction turns generalizing first with
  | zero => trivial
  | succ turns ih =>
    rw [count]
    split
    · have turn : (act (.checkpoint loc) (next first)).Orderly := ⟨trivial, fun _ => h first⟩
      exact turn.bind (fun _ => ih _) fun _ => quiet_count (.inr trivial) last step _ next
    · trivial

end Loops

end Script

section Statements

open Script

variable {mayRunOut : Prop}

theorem quiet_scriptBlock (turns : Nat) (ss : List Stmt) :
    (scriptBlock turns ss).Quiet mayRunOut := by
  cases ss with
  | nil => rw [scriptBlock]; trivial
  | cons s rest =>
    rw [scriptBlock, Stmt.script.eq_def]
    exact .inl rfl

-- The recursion is that of the program.
mutual

theorem Stmt.orderly_script (turns : Nat) (s : Stmt) : (s.script turns).Orderly := by
  rw [Stmt.script.eq_def]
  refine ⟨trivial, fun _ => ?_⟩
  match s with
  | .assign _ _ _ | .dimension _ _ _ | .assignElement _ _ _ _ =>
    exact ⟨trivial, fun _ => ⟨trivial, fun _ => trivial⟩⟩
  | .print _ _ => exact ⟨trivial, fun _ => ⟨fun _ => trivial, fun _ => trivial⟩⟩
  | .read _ targets => exact orderly_readAll targets
  | .branch _ cond yes no =>
    refine ⟨trivial, fun v => ?_⟩
    dsimp only
    split
    · exact orderly_scriptBlock turns yes
    · exact orderly_scriptElse turns no
  | .select _ subject cases otherwise =>
    refine ⟨trivial, fun v => ?_⟩
    exact orderly_scriptCases turns v cases (orderly_scriptBlock turns otherwise)
  | .whileLoop _ cond body =>
    refine orderly_loop ?_ turns
    refine ⟨trivial, fun v => ?_⟩
    dsimp only
    split
    · exact (orderly_scriptBlock turns body).bind (fun _ => trivial) fun _ => trivial
    · trivial
  | .repeatLoop _ body cond =>
    refine orderly_loop ((orderly_scriptBlock turns body).bind (fun _ => ?_) fun _ => ?_) turns
    · exact ⟨trivial, fun _ => trivial⟩
    · exact .inr ⟨rfl, fun _ => trivial⟩
  | .forLoop _ _ first last step body =>
    refine orderly_count (fun _ => ?_) last step turns first
    exact ⟨trivial, fun _ => orderly_scriptBlock turns body⟩

theorem orderly_scriptBlock (turns : Nat) (ss : List Stmt) : (scriptBlock turns ss).Orderly := by
  match ss with
  | [] => rw [scriptBlock]; trivial
  | s :: rest =>
    rw [scriptBlock]
    exact (s.orderly_script turns).bind (fun _ => orderly_scriptBlock turns rest) fun _ =>
      quiet_scriptBlock turns rest

theorem orderly_scriptElse (turns : Nat) (no : Option (List Stmt)) :
    (scriptElse turns no).Orderly := by
  match no with
  | none => rw [scriptElse]; trivial
  | some body => rw [scriptElse]; exact orderly_scriptBlock turns body

theorem orderly_scriptCases (turns : Nat) (subject : Value) (labels : List (Expr × List Stmt))
    {other : Script Unit} (h : other.Orderly) :
    (scriptCases turns subject labels other).Orderly := by
  match labels with
  | [] => rw [scriptCases]; exact h
  | (label, body) :: rest =>
    rw [scriptCases]
    refine ⟨trivial, fun v => ?_⟩
    dsimp only
    split
    · exact orderly_scriptBlock turns body
    · exact orderly_scriptCases turns subject rest h

end

end Statements

namespace Script

variable {α β : Type}

/-- The second script goes on where the first one runs out of turns, and up to there they are
one. -/
inductive Lengthens : Script α → Script α → Prop where
  | done (a : α) : Lengthens (done a) (done a)
  | further {x : Script α} (quiet : x.Quiet False) : Lengthens exhausted x
  | act {γ : Type} (effect : Effect γ) {next next' : γ → Script α}
      (h : ∀ c, Lengthens (next c) (next' c)) : Lengthens (act effect next) (act effect next')

namespace Lengthens

theorem bind {x x' : Script α} {f f' : α → Script β} (first : Lengthens x x')
    (rest : ∀ a, Lengthens (f a) (f' a)) (quiet : ∀ a, (f' a).Quiet False) :
    Lengthens (x >>= f) (x' >>= f') := by
  induction first with
  | done a => exact rest a
  | further quiet' => exact .further (quiet'.bind quiet)
  | act effect _ ih => exact .act effect ih

theorem readAll (targets : List Target) : Lengthens (readAll targets) (Script.readAll targets) := by
  induction targets with
  | nil => exact .done ()
  | cons t rest ih =>
    refine bind ?_ (fun _ => ih) fun _ => quiet_readAll rest
    exact .act _ fun _ => .act _ fun _ => .done ()

variable {turns turns' : Nat} {loc : Option Location}

theorem loop (more : turns < turns') {next next' : Unit → Script Bool}
    (h : Lengthens (next ()) (next' ())) :
    Lengthens (loop turns (.act (.checkpoint loc) next))
      (Script.loop turns' (.act (.checkpoint loc) next')) := by
  induction turns generalizing turns' with
  | zero => exact .further (quiet_loop (.inl more) next')
  | succ turns ih =>
    obtain ⟨turns', rfl⟩ : ∃ k, turns' = k + 1 := ⟨turns' - 1, by omega⟩
    refine bind (.act _ fun _ => h) (fun again => ?_) fun again => ?_
    · cases again with
      | true => exact ih (by omega)
      | false => exact .done ()
    · cases again with
      | true => exact quiet_loop (.inl (by omega)) next'
      | false => trivial

theorem count (more : turns < turns') (last step : Number)
    {next next' : Number → Unit → Script Unit}
    (h : ∀ counter, Lengthens (next counter ()) (next' counter ())) (first : Number) :
    Lengthens (count last step turns (fun counter => .act (.checkpoint loc) (next counter)) first)
      (Script.count last step turns' (fun counter => .act (.checkpoint loc) (next' counter))
        first) := by
  induction turns generalizing turns' first with
  | zero => exact .further (quiet_count (.inl more) last step first next')
  | succ turns ih =>
    obtain ⟨turns', rfl⟩ : ∃ k, turns' = k + 1 := ⟨turns' - 1, by omega⟩
    rw [Script.count, Script.count]
    split
    · refine bind (.act _ fun _ => h first) (fun _ => ih (by omega) _) fun _ => ?_
      exact quiet_count (.inl (by omega)) last step _ next'
    · exact .done ()

end Lengthens

end Script

section Statements

open Script (Lengthens)

variable {turns turns' : Nat}

-- The recursion is that of the program.
mutual

theorem Stmt.lengthens_script (more : turns < turns') (s : Stmt) :
    Lengthens (s.script turns) (s.script turns') := by
  rw [Stmt.script.eq_def, Stmt.script.eq_def]
  refine .act _ fun _ => ?_
  match s with
  | .assign _ _ _ | .dimension _ _ _ | .assignElement _ _ _ _ | .print _ _ =>
    exact .act _ fun _ => .act _ fun _ => .done ()
  | .read _ targets => exact .readAll targets
  | .branch _ cond yes no =>
    refine .act _ fun v => ?_
    split
    · exact lengthens_scriptBlock more yes
    · exact lengthens_scriptElse more no
  | .select _ subject cases otherwise =>
    exact .act _ fun v => lengthens_scriptCases more v cases (lengthens_scriptBlock more otherwise)
  | .whileLoop _ cond body =>
    refine .loop more (.act _ fun v => ?_)
    split
    · exact (lengthens_scriptBlock more body).bind (fun _ => .done true) fun _ => trivial
    · exact .done false
  | .repeatLoop _ body cond =>
    refine .loop more ((lengthens_scriptBlock more body).bind (fun _ => ?_) fun _ => ?_)
    · exact .act _ fun v => .done _
    · exact .inr ⟨rfl, fun _ => trivial⟩
  | .forLoop _ _ first last step body =>
    refine .count more last step (fun counter => ?_) first
    exact .act _ fun _ => lengthens_scriptBlock more body

theorem lengthens_scriptBlock (more : turns < turns') (ss : List Stmt) :
    Lengthens (scriptBlock turns ss) (scriptBlock turns' ss) := by
  match ss with
  | [] =>
    rw [scriptBlock, scriptBlock]
    exact .done ()
  | s :: rest =>
    rw [scriptBlock, scriptBlock]
    exact (s.lengthens_script more).bind (fun _ => lengthens_scriptBlock more rest) fun _ =>
      quiet_scriptBlock turns' rest

theorem lengthens_scriptElse (more : turns < turns') (no : Option (List Stmt)) :
    Lengthens (scriptElse turns no) (scriptElse turns' no) := by
  match no with
  | none =>
    rw [scriptElse, scriptElse]
    exact .done ()
  | some body =>
    rw [scriptElse, scriptElse]
    exact lengthens_scriptBlock more body

theorem lengthens_scriptCases (more : turns < turns') (subject : Value)
    (labels : List (Expr × List Stmt)) {other other' : Script Unit} (h : Lengthens other other') :
    Lengthens (scriptCases turns subject labels other)
      (scriptCases turns' subject labels other') := by
  match labels with
  | [] =>
    rw [scriptCases, scriptCases]
    exact h
  | (label, body) :: rest =>
    rw [scriptCases, scriptCases]
    refine .act _ fun v => ?_
    split
    · exact lengthens_scriptBlock more body
    · exact lengthens_scriptCases more subject rest h

end

end Statements

end Pseudocode

import Pseudocode.Proofs.Outcome
import Pseudocode.Run.Exec

/-!
# Two runs of one program

Runs are built from checkpoints, evaluations, effects and loops. A relation between two runs that
holds of these and passes through composition holds of any program run on two hosts. What is known
of one run alone is such a relation that ignores the other run.

A loop comes with the checkpoint that starts each of its turns, because a relation may rest on it.
-/

namespace Pseudocode

namespace Run

/-- A loop takes a turn and goes on as a loop with one turn less. -/
theorem loop_succ (turns : Nat) (turn : Run Bool) :
    loop (turns + 1) turn = turn >>= fun again => if again then loop turns turn else pure () := by
  funext m
  rcases h : turn m with ⟨e | again, m'⟩
  · rw [Action.bind_of_error h]
    simp only [loop, h]
  · rw [Action.bind_of_ok h]
    cases again with
    | true | false => simp [loop, h]

theorem count_succ (last step : Number) (turns : Nat) (turn : Number → Run Unit) (first : Number) :
    count last step (turns + 1) turn first =
      if first ≤ last then turn first >>= fun _ => count last step turns turn (first + step)
      else pure () := by
  funext m
  split
  · rename_i h
    rcases hturn : turn first m with ⟨e | _, m'⟩
    · rw [Action.bind_of_error hturn]
      simp only [count, h, if_true, hturn]
    · rw [Action.bind_of_ok hturn]
      simp only [count, h, if_true, hturn]
  · simp_all [count]

/-- A relation between runs on two hosts, with turns for each, that is preserved by everything a
statement is made of. -/
structure Congruence (host host' : Host) (turns turns' : Nat)
    (rel : ∀ {α : Type}, Run α → Run α → Prop) : Prop where
  pure {α : Type} (a : α) : rel (pure a) (pure a)
  bind {α β : Type} {x x' : Run α} {f f' : α → Run β} :
    rel x x' → (∀ a, rel (f a) (f' a)) → rel (x >>= f) (x' >>= f')
  checkpoint (loc : Option Location) : rel (checkpoint host loc) (checkpoint host' loc)
  value (e : Expr) : rel (value host e) (value host' e)
  assign (loc : Option Location) (name : Text) (e : Expr) :
    rel (Run.value host e >>= bindVariable loc name) (Run.value host' e >>= bindVariable loc name)
  dimension (loc : Option Location) (name : Text) (size : Expr) :
    rel (evaluating (declaredSize host loc name size) >>= bindArray name)
      (evaluating (declaredSize host' loc name size) >>= bindArray name)
  assignElement (loc : Option Location) (name : Text) (index e : Expr) :
    rel (evaluating (elementTarget host loc name index e) >>= fun r => storeElement r.1 r.2.1 r.2.2)
      (evaluating (elementTarget host' loc name index e) >>= fun r => storeElement r.1 r.2.1 r.2.2)
  print (loc : Option Location) (exprs : List Expr) :
    rel (evaluating (printedLine host exprs) >>= writeLine host loc)
      (evaluating (printedLine host' exprs) >>= writeLine host' loc)
  read (t : Target) : rel (readInto host t) (readInto host' t)
  loop (loc : Option Location) {turn turn' : Run Bool} : rel turn turn' →
    rel (loop turns (Run.checkpoint host loc >>= fun _ => turn))
      (Run.loop turns' (Run.checkpoint host' loc >>= fun _ => turn'))
  count (loc : Option Location) (var : Text) (first last step : Number) {body body' : Run Unit} :
    rel body body' →
    rel (count last step turns (fun counter => Run.checkpoint host loc >>= fun _ =>
        bindVariable loc var (.number counter) >>= fun _ => body) first)
      (Run.count last step turns' (fun counter => Run.checkpoint host' loc >>= fun _ =>
        bindVariable loc var (.number counter) >>= fun _ => body') first)

namespace Congruence

variable {host host' : Host} {turns turns' : Nat} {rel : ∀ {α : Type}, Run α → Run α → Prop}

theorem readAll (c : Congruence host host' turns turns' rel) (targets : List Target) :
    rel (readAll host targets) (Run.readAll host' targets) := by
  induction targets with
  | nil => exact c.pure ()
  | cons t rest ih => exact c.bind (c.read t) fun _ => ih

-- The recursion is that of the program, one case for each form of statement.
mutual

theorem stmt (c : Congruence host host' turns turns' rel) (s : Stmt) :
    rel (s.exec host turns) (s.exec host' turns') := by
  rw [Stmt.exec.eq_def, Stmt.exec.eq_def]
  refine c.bind (c.checkpoint s.loc) fun _ => ?_
  match s with
  | .assign loc name e => exact c.assign loc name e
  | .dimension loc name size => exact c.dimension loc name size
  | .assignElement loc name index e => exact c.assignElement loc name index e
  | .print loc exprs => exact c.print loc exprs
  | .read loc targets => exact c.readAll targets
  | .branch loc cond yes no =>
    refine c.bind (c.value cond) fun v => ?_
    cases v.truthy with
    | true => exact c.block yes
    | false => exact c.second no
  | .select loc subject cases otherwise =>
    exact c.bind (c.value subject) fun v => c.cases v cases (c.block otherwise)
  | .whileLoop loc cond body =>
    refine c.loop loc (c.bind (c.value cond) fun v => ?_)
    cases v.truthy with
    | true => exact c.bind (c.block body) fun _ => c.pure true
    | false => exact c.pure false
  | .repeatLoop loc body cond =>
    refine c.loop loc (c.bind (c.block body) fun _ => ?_)
    exact c.bind (c.value cond) fun v => c.pure _
  | .forLoop loc var first last step body =>
    exact c.count loc var first last step (c.block body)

theorem block (c : Congruence host host' turns turns' rel) (ss : List Stmt) :
    rel (execBlock host turns ss) (execBlock host' turns' ss) := by
  match ss with
  | [] =>
    rw [execBlock, execBlock]
    exact c.pure ()
  | s :: rest =>
    rw [execBlock, execBlock]
    exact c.bind (c.stmt s) fun _ => c.block rest

theorem second (c : Congruence host host' turns turns' rel) (no : Option (List Stmt)) :
    rel (execElse host turns no) (execElse host' turns' no) := by
  match no with
  | none =>
    rw [execElse, execElse]
    exact c.pure ()
  | some body =>
    rw [execElse, execElse]
    exact c.block body

theorem cases (c : Congruence host host' turns turns' rel) (subject : Value)
    (labels : List (Expr × List Stmt)) {otherwise otherwise' : Run Unit}
    (h : rel otherwise otherwise') :
    rel (execCases host turns subject labels otherwise)
      (execCases host' turns' subject labels otherwise') := by
  match labels with
  | [] =>
    rw [execCases, execCases]
    exact h
  | (label, body) :: rest =>
    rw [execCases, execCases]
    refine c.bind (c.value label) fun v => ?_
    cases v.same subject with
    | true => exact c.block body
    | false => exact c.cases subject rest h

end

end Congruence

end Run

end Pseudocode

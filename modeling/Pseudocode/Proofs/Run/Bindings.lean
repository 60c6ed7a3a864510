import Pseudocode.Proofs.Program.Fitness
import Pseudocode.Proofs.Run.Congruence
import Pseudocode.Proofs.Run.Effects

/-!
# A block binds only what it says

A variable that no statement of a block binds has the same value after the block as before, if it
has one.
-/

namespace Pseudocode

theorem Variables.find?_insert_of_ne {vs : Variables} {name x : Text} (other : x ≠ name)
    (v : Value) : (vs.insert name v).find? x = vs.find? x := by
  rw [find?_insert, if_neg other]

/-- Where it succeeds, a run leaves a variable as it was. -/
def Run.Keeps {α : Type} (x : Text) (r : Run α) : Prop :=
  ∀ ⦃m a m'⦄, r m = (.ok a, m') → m'.store.bindings.find? x = m.store.bindings.find? x

namespace Run.Keeps

variable {α β : Type} {x : Text} {host : Host} {loc : Option Location}

theorem pure (a : α) : Keeps x (pure a) := by
  intro m b m' h
  cases h
  rfl

theorem bind {r : Run α} {f : α → Run β} (first : Keeps x r) (rest : ∀ a, Keeps x (f a)) :
    Keeps x (r >>= f) := by
  intro m b m' h
  obtain ⟨a, m₁, h₁, h₂⟩ := Action.bind_eq_ok.1 h
  exact (rest a h₂).trans (first h₁)

theorem checkpoint : Keeps x (checkpoint host loc) := by
  intro m _ m' h
  cases checkpoint_eq_ok h
  rfl

theorem evaluating {y : Store → Eval α} : Keeps x (evaluating y) := by
  intro m a m' h
  obtain ⟨drawn, _, rfl⟩ := evaluating_eq_ok h
  rfl

theorem writeLine {line : Text} : Keeps x (writeLine host loc line) := by
  intro m _ m' h
  rw [(writeLine_eq_ok h).1]

theorem bindVariable {name : Text} (other : x ≠ name) (v : Value) :
    Keeps x (bindVariable loc name v) := by
  intro m _ m' h
  cases bindVariable_eq_ok h
  exact Variables.find?_insert_of_ne other v

theorem bindArray {name : Text} (other : x ≠ name) (size : Nat) :
    Keeps x (bindArray name size) := by
  intro m _ m' h
  cases h
  exact Variables.find?_insert_of_ne other _

theorem storeElement (id slot : Nat) (v : Value) : Keeps x (storeElement id slot v) := by
  intro m _ m' h
  cases h
  rfl

theorem readLine {name : Text} : Keeps x (readLine host loc name) := by
  intro m line m' h
  simp only [Run.readLine] at h
  split at h
  · cases h
    rfl
  · cases h

theorem readAll {targets : List Target} (other : x ∉ targets.map Target.name) :
    Keeps x (readAll host targets) := by
  induction targets with
  | nil => exact pure ()
  | cons t rest ih =>
    rw [List.map_cons, List.mem_cons, not_or] at other
    refine .bind (.bind readLine fun _ => bindVariable other.1 _) fun _ => ?_
    exact ih other.2

theorem loop {turn : Run Bool} (h : Keeps x turn) (turns : Nat) : Keeps x (loop turns turn) := by
  induction turns with
  | zero =>
    intro m _ m' ran
    cases ran
  | succ turns ih =>
    rw [loop_succ]
    refine h.bind fun again => ?_
    cases again with
    | true => exact ih
    | false => exact pure ()

theorem count {turn : Number → Run Unit} (h : ∀ counter, Keeps x (turn counter))
    (last step : Number) (turns : Nat) (first : Number) :
    Keeps x (count last step turns turn first) := by
  induction turns generalizing first with
  | zero =>
    intro m _ m' ran
    cases ran
  | succ turns ih =>
    rw [count_succ]
    split
    · exact (h first).bind fun _ => ih _
    · exact pure ()

end Run.Keeps

open Run (Keeps)

-- The recursion is that of the program.
mutual

theorem Stmt.keeps_exec {x : Text} (host : Host) (turns : Nat) {s : Stmt}
    (unbound : ∀ a ∈ s.parts, x ∉ a.assigned) : Keeps x (s.exec host turns) := by
  rw [Stmt.parts.eq_def] at unbound
  obtain ⟨own, inner⟩ := List.forall_mem_cons.1 unbound
  rw [Stmt.exec.eq_def]
  refine .bind .checkpoint fun _ => ?_
  match s with
  | .assign _ _ _ =>
    exact .bind .evaluating fun v => .bindVariable (List.ne_of_not_mem_cons own) v
  | .dimension _ _ _ =>
    exact .bind .evaluating fun n => .bindArray (List.ne_of_not_mem_cons own) n
  | .assignElement _ _ _ _ => exact .bind .evaluating fun r => .storeElement r.1 r.2.1 r.2.2
  | .print _ _ => exact .bind .evaluating fun line => .writeLine
  | .read _ _ => exact .readAll own
  | .branch _ _ yes no =>
    obtain ⟨inYes, inNo⟩ := List.forall_mem_append.1 inner
    refine .bind .evaluating fun v => ?_
    cases v.truthy with
    | true => exact keeps_execBlock host turns inYes
    | false => exact keeps_execElse host turns inNo
  | .select _ _ _ _ =>
    obtain ⟨inCases, inRest⟩ := List.forall_mem_append.1 inner
    refine .bind .evaluating fun v => ?_
    exact keeps_execCases host turns v inCases (keeps_execBlock host turns inRest)
  | .whileLoop _ _ _ =>
    refine .loop (.bind .checkpoint fun _ => .bind .evaluating fun v => ?_) turns
    cases v.truthy with
    | true => exact (keeps_execBlock host turns inner).bind fun _ => .pure true
    | false => exact .pure false
  | .repeatLoop _ _ _ =>
    refine .loop (.bind .checkpoint fun _ => ?_) turns
    exact (keeps_execBlock host turns inner).bind fun _ => .bind .evaluating fun v => .pure _
  | .forLoop _ _ first last step _ =>
    refine .count (fun counter => .bind .checkpoint fun _ => ?_) last step turns first
    refine .bind (.bindVariable (List.ne_of_not_mem_cons own) _) fun _ => ?_
    exact keeps_execBlock host turns inner

theorem keeps_execBlock {x : Text} (host : Host) (turns : Nat) {ss : List Stmt}
    (unbound : ∀ a ∈ partsOfBlock ss, x ∉ a.assigned) : Keeps x (execBlock host turns ss) := by
  match ss with
  | [] =>
    rw [execBlock]
    exact .pure ()
  | s :: rest =>
    rw [partsOfBlock] at unbound
    obtain ⟨first, later⟩ := List.forall_mem_append.1 unbound
    rw [execBlock]
    exact (Stmt.keeps_exec host turns first).bind fun _ => keeps_execBlock host turns later

theorem keeps_execElse {x : Text} (host : Host) (turns : Nat) {no : Option (List Stmt)}
    (unbound : ∀ a ∈ partsOfElse no, x ∉ a.assigned) : Keeps x (execElse host turns no) := by
  match no with
  | none =>
    rw [execElse]
    exact .pure ()
  | some body =>
    rw [partsOfElse] at unbound
    rw [execElse]
    exact keeps_execBlock host turns unbound

theorem keeps_execCases {x : Text} (host : Host) (turns : Nat) (subject : Value)
    {labels : List (Expr × List Stmt)} {otherwise : Run Unit}
    (unbound : ∀ a ∈ partsOfCases labels, x ∉ a.assigned) (h : Keeps x otherwise) :
    Keeps x (execCases host turns subject labels otherwise) := by
  match labels with
  | [] =>
    rw [execCases]
    exact h
  | (label, body) :: rest =>
    rw [partsOfCases] at unbound
    obtain ⟨first, later⟩ := List.forall_mem_append.1 unbound
    rw [execCases]
    refine .bind .evaluating fun v => ?_
    cases v.same subject with
    | true => exact keeps_execBlock host turns first
    | false => exact keeps_execCases host turns subject later h

end

/-- A variable that is bound before a block that does not bind it has its value after the block. -/
theorem find?_of_bound {host : Host} {turns : Nat} {loc : Option Location} {x : Text} {v : Value}
    {ss : List Stmt} {m m' : Machine} (unbound : ∀ a ∈ partsOfBlock ss, x ∉ a.assigned)
    (ran : (Run.bindVariable loc x v >>= fun _ => execBlock host turns ss) m = (.ok (), m')) :
    m'.store.bindings.find? x = some v := by
  obtain ⟨_, m₁, binds, runs⟩ := Action.bind_eq_ok.1 ran
  rw [keeps_execBlock host turns unbound runs, Run.bindVariable_eq_ok binds,
    Variables.find?_insert, if_pos rfl]

end Pseudocode

import Pseudocode.Proofs.Program.Origin
import Pseudocode.Proofs.Run.Raising

/-!
# Where a run fails

An error of an effect has the place of a node of an expression, of the statement that asks for the
effect, or of the variable that a line is wanted for. So a run fails at places of its program,
whatever its host does.
-/

namespace Pseudocode

open Pseudocode.Action (FailsOnly failsOnly_pure failsOnly_fail)

variable {P : Option Location → Prop}

/-- A halt that is no error, or an error at a place with a property. -/
def Halt.IsAt (P : Option Location → Prop) : Halt → Prop
  | failed e => P e.loc
  | exhausted => True

theorem RuntimeError.IsOf.place {nodes : List Expr} {e : RuntimeError} (h : e.IsOf nodes)
    (all : ∀ a ∈ nodes, P a.loc) : P e.loc := by
  obtain ⟨a, mem, same, -⟩ := h
  exact same ▸ all a mem

namespace Script

variable {α β : Type}

/-- On every host, a script fails at places with a property only. -/
def IsAt (P : Option Location → Prop) (x : Script α) : Prop :=
  ∀ host, FailsOnly (Halt.IsAt P) (x.run host)

theorem isAt_act {effect : Effect β} {next : β → Script α}
    (first : ∀ e, effect.Raises e → P e.loc) (rest : ∀ b, (next b).IsAt P) :
    (act effect next).IsAt P := by
  refine fun host => FailsOnly.bind (fun m halt m' failed => ?_) fun b => rest b host
  obtain ⟨e, rfl, raised⟩ := Effect.raises_of_perform failed
  exact first e raised

theorem isAt_perform {effect : Effect α} (h : ∀ e, effect.Raises e → P e.loc) :
    (perform effect).IsAt P :=
  isAt_act h fun a _ => failsOnly_pure a

theorem isAt_bindVariable {loc : Option Location} (own : P loc) (name : Text) (v : Value) :
    (perform (.bindVariable loc name v)).IsAt P := by
  refine isAt_perform fun e raised => ?_
  obtain ⟨-, rfl⟩ := raised
  exact own

/-- The script of a program fails at its places. -/
theorem closed_isAt : Closed (Stmt.IsPlaced P) (IsAt P) where
  pure a _ := failsOnly_pure a
  exhausted _ := failsOnly_fail trivial
  bind first rest host := by
    rw [run_bind]
    exact (first host).bind fun a => rest a host
  checkpoint placed := by
    refine isAt_perform fun e raised => ?_
    obtain ⟨cause, rfl⟩ | ⟨limit, rfl⟩ := raised
    · exact placed.own
    · exact placed.own
  value placed mem := isAt_perform fun e raised => raised.place (placed.operand mem)
  assign placed := by
    refine isAt_act (fun e raised => ?_) fun v => isAt_bindVariable placed.own _ v
    exact raised.place (placed.operand (List.mem_singleton_self _))
  dimension placed := by
    refine isAt_act (fun e raised => ?_) fun n => isAt_perform fun e raised => raised.elim
    obtain node | rfl | ⟨_, _, _, _, _, rfl⟩ := raised
    · exact node.place (placed.operand (List.mem_singleton_self _))
    · exact placed.own
    · exact placed.own
  assignElement placed := by
    refine isAt_act (fun e raised => ?_) fun r => isAt_perform fun e raised => raised.elim
    refine raised.place (List.forall_mem_append.2 ⟨?_, ?_⟩)
    · rw [Expr.parts]
      exact List.forall_mem_cons.2 ⟨placed.own, placed.operand List.mem_cons_self⟩
    · exact placed.operand (List.mem_cons_of_mem _ (List.mem_singleton_self _))
  print placed := by
    refine isAt_act (fun e raised => raised.place placed.expressions) fun line => ?_
    refine isAt_perform fun e raised => ?_
    obtain ⟨cause, rfl⟩ := raised
    exact placed.own
  read placed mem := by
    refine isAt_act (fun e raised => ?_) fun line => isAt_bindVariable (placed.targets _ mem) _ _
    obtain ⟨cause, rfl⟩ := raised
    exact placed.targets _ mem
  count placed counter := isAt_bindVariable placed.own _ _

end Script

/-- A run fails at a place of its program. -/
theorem Program.place_of_error? {p : Program} (placed : ∀ s ∈ p.statements, s.IsPlaced P)
    {turns : Nat} {host : Host} {channels : Channels} {e : RuntimeError}
    (failed : (p.runFor turns host channels).1.error? = some e) : P e.loc := by
  have fails := Script.closed_isAt.block turns p.body placed host
  obtain ⟨m, ran⟩ := exists_run_of_error? failed
  exact fails ran

end Pseudocode

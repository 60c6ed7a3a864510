import Pseudocode.Proofs.Run.Congruence

/-!
# Turns do not matter

Turns only end a run that has no answer yet. A run that came to an answer, be it an error, comes to
the same one with more turns.
-/

namespace Pseudocode

namespace Run

variable {α β : Type}

/-- The second run answers as the first wherever the first has an answer. -/
def Stable (x x' : Run α) : Prop := ∀ m, (x m).1 ≠ .error .exhausted → x' m = x m

namespace Stable

theorem refl (x : Run α) : Stable x x := fun _ _ => rfl

theorem bind {x x' : Run α} {f f' : α → Run β} (first : Stable x x')
    (rest : ∀ a, Stable (f a) (f' a)) : Stable (x >>= f) (x' >>= f') := by
  intro m answers
  rcases hx : x m with ⟨e | a, m'⟩
  · rw [Action.bind_of_error hx] at answers ⊢
    have hx' : x' m = x m := first m (by simpa [hx] using answers)
    exact Action.bind_of_error (hx'.trans hx)
  · rw [Action.bind_of_ok hx] at answers ⊢
    have hx' : x' m = x m := first m (by simp [hx])
    rw [Action.bind_of_ok (hx'.trans hx)]
    exact rest a m' answers

variable {turns turns' : Nat}

theorem loop (more : turns ≤ turns') {turn turn' : Run Bool} (h : Stable turn turn') :
    Stable (Run.loop turns turn) (Run.loop turns' turn') := by
  induction turns generalizing turns' with
  | zero => exact fun m answers => absurd rfl answers
  | succ turns ih =>
    obtain ⟨turns', rfl⟩ : ∃ k, turns' = k + 1 := ⟨turns' - 1, by omega⟩
    rw [loop_succ, loop_succ]
    refine h.bind fun again => ?_
    cases again with
    | true => exact ih (by omega)
    | false => exact refl _

theorem count (more : turns ≤ turns') (last step : Number) {turn turn' : Number → Run Unit}
    (h : ∀ counter, Stable (turn counter) (turn' counter)) (first : Number) :
    Stable (Run.count last step turns turn first) (Run.count last step turns' turn' first) := by
  induction turns generalizing turns' first with
  | zero => exact fun m answers => absurd rfl answers
  | succ turns ih =>
    obtain ⟨turns', rfl⟩ : ∃ k, turns' = k + 1 := ⟨turns' - 1, by omega⟩
    rw [count_succ, count_succ]
    split
    · exact (h first).bind fun _ => ih (by omega) _
    · exact refl _

end Stable

theorem stable_congruence (host : Host) {turns turns' : Nat} (more : turns ≤ turns') :
    Congruence host host turns turns' Stable where
  pure _ := .refl _
  bind first rest := first.bind rest
  checkpoint _ := .refl _
  value _ := .refl _
  assign _ _ _ := .refl _
  dimension _ _ _ := .refl _
  assignElement _ _ _ _ := .refl _
  print _ _ := .refl _
  read _ := .refl _
  loop _ {_ _} h := .loop more (.bind (.refl _) fun _ => h)
  count _ _ first last step {_ _} h :=
    .count more last step (fun _ => .bind (.refl _) fun _ => .bind (.refl _) fun _ => h) first

end Run

/-- Why a run stopped, by its answer. -/
def Halt.ofAnswer : Except Halt Unit → Option Halt
  | .ok () => none
  | .error halt => some halt

theorem Halt.ofAnswer_eq_some {r : Except Halt Unit} {halt : Halt} :
    ofAnswer r = some halt ↔ r = .error halt := by
  cases r with
  | ok | error => simp [ofAnswer]

/-- What came of a run, by its answer and its last state. -/
def Report.ofAnswer (r : Except Halt Unit × Machine) : Report × Channels :=
  (⟨r.2.log, r.2.store, r.2.steps, Halt.ofAnswer r.1⟩, r.2.channels)

namespace Program

variable {turns turns' : Nat} {host : Host} {p : Program} {channels : Channels}

theorem runFor_eq (turns : Nat) (host : Host) (p : Program) (channels : Channels) :
    p.runFor turns host channels =
      Report.ofAnswer (execBlock host turns p.body ⟨.empty, 0, #[], channels⟩) := by
  rw [runFor, Interpreter.runFor, Interpreter.reset]
  rcases execBlock host turns p.body ⟨.empty, 0, #[], channels⟩ with ⟨halt | _, m⟩
  · rfl
  · rfl

/-- A run that has an answer has the same one with more turns. -/
theorem runFor_of_le (more : turns ≤ turns')
    (answers : (p.runFor turns host channels).1.halt ≠ some .exhausted) :
    p.runFor turns' host channels = p.runFor turns host channels := by
  have same := (Run.stable_congruence host more).block p.body ⟨.empty, 0, #[], channels⟩
  rw [runFor_eq] at answers
  rw [runFor_eq, runFor_eq, same fun h => answers (Halt.ofAnswer_eq_some.2 h)]

end Program

end Pseudocode

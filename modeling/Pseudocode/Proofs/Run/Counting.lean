import Mathlib
import Pseudocode.Proofs.Number.Sum
import Pseudocode.Proofs.Run.Effects
import Pseudocode.Proofs.Run.Script

/-!
# The rounds of a counting loop

A counting loop keeps its counter to itself. Each round binds the variable to the counter before the
body runs, and the next counter is computed from the counter and not from the variable, so nothing
that the body does can change how many rounds there are or what the variable is when one starts.

Where the bounds and the step are integers, the counters are integers too: they stay within two to
the power of 53, where adding and comparing is exact. A loop is then the composite of its rounds,
and in this form nothing is left of the turns that it is counted down from: a round takes a step, so
a limit of steps ends the run before the turns are used up, and without a limit there are more turns
than rounds.
-/

namespace Pseudocode

/-- No effect takes a step back. -/
theorem Effect.steps_le_perform {α : Type} (effect : Effect α) (host : Host) (m : Machine) :
    m.steps ≤ (effect.perform host m).2.steps := by
  have evaluates {β : Type} (x : Store → Eval β) : m.steps ≤ (Run.evaluating x m).2.steps := by
    rw [Run.evaluating]
    split
    · exact Nat.le_refl _
    · exact Nat.le_refl _
  cases effect with
  | checkpoint loc =>
    simp only [perform, Run.checkpoint]
    split
    · exact Nat.le_refl _
    · split
      · exact Nat.le_succ _
      · exact Nat.le_succ _
  | value e => exact evaluates _
  | bindVariable loc name v =>
    simp only [perform, Run.bindVariable]
    split
    · exact Nat.le_refl _
    · exact Nat.le_refl _
  | declaredSize loc name size => exact evaluates _
  | bindArray name size => exact Nat.le_refl _
  | elementTarget loc name index value => exact evaluates _
  | storeElement id slot v => exact Nat.le_refl _
  | printedLine exprs => exact evaluates _
  | writeLine loc line =>
    simp only [perform, Run.writeLine]
    split
    · exact Nat.le_refl _
    · exact Nat.le_refl _
  | readLine loc name =>
    simp only [perform, Run.readLine]
    split
    · exact Nat.le_refl _
    · exact Nat.le_refl _

theorem Script.steps_le_run {α : Type} (x : Script α) (host : Host) (m : Machine) :
    m.steps ≤ (x.run host m).2.steps := by
  induction x generalizing m with
  | done a => exact Nat.le_refl _
  | exhausted => exact Nat.le_refl _
  | act effect next ih =>
    have onward := effect.steps_le_perform host m
    rcases ran : effect.perform host m with ⟨e | b, m'⟩
    · rw [ran] at onward
      rw [run_act_of_error ran]
      exact onward
    · rw [ran] at onward
      rw [run_act_of_ok ran]
      exact onward.trans (ih b m')

namespace Run

section Rounds

variable (host : Host) (loc : Option Location) (var : Text) (body : List Stmt)

/-- What a round does before its body: it passes a checkpoint and binds the variable. -/
def enter (counter : Number) : Run Unit := do
  checkpoint host loc
  bindVariable loc var (.number counter)

/-- A round of a counting loop. -/
def round (counter : Number) : Run Unit := do
  enter host loc var counter
  execBlock host host.turns body

/-- The rounds with these counters, all of which end well. Each is entered, its body is executed
from the state at its start, and the next one goes on from there. -/
inductive Rounds : List Number → (starts : List Machine) → Machine → Machine → Prop
  | nil {m : Machine} : Rounds [] [] m m
  | cons {counter : Number} {counters : List Number} {start : Machine} {starts : List Machine}
      {m ended m' : Machine} (entered : enter host loc var counter m = (.ok (), start))
      (executed : execBlock host host.turns body start = (.ok (), ended))
      (rest : Rounds counters starts ended m') :
      Rounds (counter :: counters) (start :: starts) m m'

end Rounds

variable {host : Host} {loc : Option Location} {var : Text} {body : List Stmt}
  {counter : Number} {counters : List Number} {starts : List Machine}
  {m m' start : Machine}

theorem store_checkpoint (host : Host) (loc : Option Location) (m : Machine) :
    (checkpoint host loc m).2.store = m.store := by
  simp only [checkpoint]
  split
  · rfl
  · split
    · rfl
    · rfl

theorem enter_eq_ok (entered : enter host loc var counter m = (.ok (), start)) :
    start.steps = m.steps + 1 ∧ start.store.get? var = some (.number counter) ∧
      (0 < host.maxSteps → start.steps ≤ host.maxSteps) := by
  obtain ⟨_, passed, checked, bound⟩ := Action.bind_eq_ok.1 entered
  have within : 0 < host.maxSteps → passed.steps ≤ host.maxSteps := by
    simp only [checkpoint] at checked
    split at checked
    · cases checked
    · split at checked
      · cases checked
      · cases checked
        simp only
        omega
  obtain rfl := checkpoint_eq_ok checked
  have free : constant? var = none := by
    cases reserved : constant? var with
    | none => rfl
    | some c =>
      rw [bindVariable, Store.set?, reserved, Option.isSome_some, if_pos rfl] at bound
      cases bound
  obtain rfl := bindVariable_eq_ok bound
  refine ⟨rfl, ?_, within⟩
  rw [Store.get?, free]
  exact (Variables.find?_insert _ _ _ _).trans (if_pos rfl)

/-- A round that ends well takes a step, and that is within the limit. -/
theorem steps_of_round (ran : round host loc var body counter m = (.ok (), m')) :
    m.steps < m'.steps ∧ (0 < host.maxSteps → m.steps < host.maxSteps) := by
  obtain ⟨_, start, entered, executed⟩ := Action.bind_eq_ok.1 ran
  obtain ⟨steps, -, within⟩ := enter_eq_ok entered
  have onward : start.steps ≤ m'.steps := by
    have later := (scriptBlock host.turns body).steps_le_run host start
    rwa [run_scriptBlock, executed] at later
  exact ⟨by omega, fun limited => by have := within limited; omega⟩

/-- Rounds end well exactly if each of them does. -/
theorem forM_round_eq_ok : forM counters (round host loc var body) m = (.ok (), m') ↔
    ∃ starts, Rounds host loc var body counters starts m m' := by
  induction counters generalizing m with
  | nil =>
    rw [List.forM_nil]
    constructor
    · intro done
      cases done
      exact ⟨[], .nil⟩
    · rintro ⟨_, ⟨⟩⟩
      rfl
  | cons counter counters ih =>
    rw [List.forM_cons, Action.bind_eq_ok]
    constructor
    · rintro ⟨_, ended, ran, later⟩
      obtain ⟨_, start, entered, executed⟩ := Action.bind_eq_ok.1 ran
      obtain ⟨starts, rest⟩ := ih.1 later
      exact ⟨start :: starts, .cons entered executed rest⟩
    · rintro ⟨_, _ | ⟨entered, executed, rest⟩⟩
      exact ⟨(), _, Action.bind_eq_ok.2 ⟨(), _, entered, executed⟩, ih.2 ⟨_, rest⟩⟩

theorem checkpoint_forM_eq_ok :
    (checkpoint host loc >>= fun _ => forM counters (round host loc var body)) m = (.ok (), m') ↔
      ∃ m₀ starts, checkpoint host loc m = (.ok (), m₀) ∧
        Rounds host loc var body counters starts m₀ m' := by
  rw [Action.bind_eq_ok]
  constructor
  · rintro ⟨_, m₀, passed, ran⟩
    obtain ⟨starts, rounds⟩ := forM_round_eq_ok.1 ran
    exact ⟨m₀, starts, passed, rounds⟩
  · rintro ⟨m₀, starts, passed, rounds⟩
    exact ⟨(), m₀, passed, forM_round_eq_ok.2 ⟨starts, rounds⟩⟩

/-- Without rounds all variables are left as they are, also where the checkpoint is not passed. -/
theorem store_checkpoint_forM_nil (host : Host) (loc : Option Location) (var : Text)
    (body : List Stmt) (m : Machine) :
    ((checkpoint host loc >>= fun _ => forM [] (round host loc var body)) m).2.store =
      m.store := by
  have kept := store_checkpoint host loc m
  rcases passed : checkpoint host loc m with ⟨e | _, m₀⟩
  · rw [passed] at kept
    rw [Action.bind_of_error passed]
    exact kept
  · rw [passed] at kept
    rw [Action.bind_of_ok passed]
    exact kept

namespace Rounds

theorem length_starts (h : Rounds host loc var body counters starts m m') :
    starts.length = counters.length := by
  induction h with
  | nil => rfl
  | cons _ _ _ ih => rw [List.length_cons, List.length_cons, ih]

/-- At the start of a round the variable is the counter. -/
theorem exists_counter (h : Rounds host loc var body counters starts m m') {k : Nat}
    (started : starts[k]? = some start) :
    ∃ counter, counters[k]? = some counter ∧ start.store.get? var = some (.number counter) := by
  induction h generalizing k with
  | nil => cases started
  | cons entered _ _ ih =>
    cases k with
    | zero =>
      cases started
      exact ⟨_, rfl, (enter_eq_ok entered).2.1⟩
    | succ k => exact ih started

end Rounds

end Run

namespace Number

variable {first step : Number} {a s : Int}

/-- Adding integers is exact up to two to the power of 53. -/
theorem value?_add_int (hfirst : first.value? = some (a : ℚ)) (hstep : step.value? = some (s : ℚ))
    (small : (a + s).natAbs ≤ 9007199254740992) :
    (first + step).value? = some ((a + s : Int) : ℚ) := by
  rw [Int.cast_add]
  exact value?_add hfirst hstep (by rw [← Int.cast_add]; exact value?_ofInt small)

end Number

namespace Run

variable {host : Host} {loc : Option Location} {var : Text} {body : List Stmt}
  {first last step : Number} {a b s : Int}

/-- How many counters there are from `a` up to `b`, each `s` above the one before. -/
def roundCount (a b s : Int) : Nat := ((b - a) / s + 1).toNat

theorem roundCount_eq_zero (positive : 0 < s) : roundCount a b s = 0 ↔ b < a := by
  have floor := Int.ediv_nonneg_iff_of_pos (a := b - a) positive
  rw [roundCount, Int.toNat_eq_zero]
  omega

theorem roundCount_add_step (positive : 0 < s) :
    roundCount (a + s) b s = roundCount a b s - 1 := by
  have floor : (b - (a + s)) / s = (b - a) / s - 1 := by
    rw [← sub_sub, Int.sub_ediv_of_dvd _ (Int.dvd_refl s), Int.ediv_self positive.ne']
  rw [roundCount, roundCount, floor]
  omega

/-- The last counter is not above the bound. -/
theorem add_mul_le_of_lt_roundCount {k : Nat} (positive : 0 < s) (lt : k < roundCount a b s) :
    a + k * s ≤ b := by
  have below : (k : Int) ≤ (b - a) / s := by
    rw [roundCount] at lt
    omega
  have := (Int.le_ediv_iff_mul_le positive).1 below
  omega

/-- The counters have the values that counting integers gives. -/
theorem value?_counter (hfirst : first.value? = some (a : ℚ)) (hstep : step.value? = some (s : ℚ))
    (positive : 0 < s) (lower : -9007199254740992 ≤ a) (upper : b ≤ 9007199254740992) {k : Nat}
    {counter : Number}
    (counted : (List.iterate (· + step) first (roundCount a b s))[k]? = some counter) :
    counter.value? = some ((a + k * s : Int) : ℚ) := by
  obtain ⟨lt, rfl⟩ := List.getElem?_eq_some_iff.1 counted
  clear counted
  rw [List.getElem_iterate]
  rw [List.length_iterate] at lt
  induction k with
  | zero =>
    rw [Function.iterate_zero, id, Nat.cast_zero, zero_mul, add_zero]
    exact hfirst
  | succ k ih =>
    have below := add_mul_le_of_lt_roundCount positive lt
    have above : 0 ≤ ((k + 1 : Nat) : Int) * s := Int.mul_nonneg (Int.natCast_nonneg _) positive.le
    have next : a + ((k + 1 : Nat) : Int) * s = a + k * s + s := by
      push_cast
      ring
    rw [Function.iterate_succ_apply', next]
    exact Number.value?_add_int (ih (by omega)) hstep (by omega)

/-- Counting up to a bound is going through the rounds, as long as there are turns for them or for
the steps that are left. -/
theorem count_eq_forM (hfirst : first.value? = some (a : ℚ)) (hlast : last.value? = some (b : ℚ))
    (hstep : step.value? = some (s : ℚ)) (positive : 0 < s) (lower : -9007199254740992 ≤ a)
    (upper : b + s ≤ 9007199254740992) {n turns : Nat} (rounds : roundCount a b s = n) {m : Machine}
    (left : 0 < turns)
    (enough : n < turns ∨ (0 < host.maxSteps ∧ host.maxSteps < turns + m.steps)) :
    count last step turns (round host loc var body) first m =
      forM (List.iterate (· + step) first n) (round host loc var body) m := by
  induction n generalizing first a turns m with
  | zero =>
    have above : ¬ first ≤ last := by
      rw [Number.le_iff hfirst hlast, Int.cast_le, not_le]
      exact (roundCount_eq_zero positive).1 rounds
    obtain ⟨turns, rfl⟩ := Nat.exists_eq_succ_of_ne_zero left.ne'
    rw [count_succ, if_neg above]
    rfl
  | succ n ih =>
    have within : a ≤ b := by
      by_contra above
      rw [(roundCount_eq_zero positive).2 (not_le.1 above)] at rounds
      cases rounds
    have below : first ≤ last := by
      rw [Number.le_iff hfirst hlast, Int.cast_le]
      exact within
    obtain ⟨turns, rfl⟩ := Nat.exists_eq_succ_of_ne_zero left.ne'
    rw [count_succ, if_pos below, List.iterate, List.forM_cons]
    rcases ran : round host loc var body first m with ⟨e | _, m'⟩
    · rw [Action.bind_of_error ran, Action.bind_of_error ran]
    · rw [Action.bind_of_ok ran, Action.bind_of_ok ran]
      obtain ⟨steps, limited⟩ := steps_of_round ran
      refine ih (Number.value?_add_int hfirst hstep (by omega)) (by omega) ?_ ?_ ?_
      · rw [roundCount_add_step positive, rounds]
        rfl
      · omega
      · omega

theorem round_eq (counter : Number) : round host loc var body counter =
    checkpoint host loc >>= fun _ =>
      bindVariable loc var (.number counter) >>= fun _ => execBlock host host.turns body :=
  Action.bind_assoc _ _ _

/-- A counting loop is a checkpoint and its rounds, however they end. -/
theorem exec_forLoop (hfirst : first.value? = some (a : ℚ)) (hlast : last.value? = some (b : ℚ))
    (hstep : step.value? = some (s : ℚ)) (smallFirst : |a| ≤ 2 ^ 52) (smallLast : |b| ≤ 2 ^ 52)
    (positive : 1 ≤ s) (smallStep : s ≤ 2 ^ 52) :
    (Stmt.forLoop loc var first last step body).exec host host.turns =
      checkpoint host loc >>= fun _ =>
        forM (List.iterate (· + step) first (roundCount a b s)) (round host loc var body) := by
  obtain ⟨lowerFirst, upperFirst⟩ := abs_le.1 smallFirst
  obtain ⟨lowerLast, upperLast⟩ := abs_le.1 smallLast
  have few : roundCount a b s ≤ 9007199254740993 := by
    have quotient : (b - a) / s ≤ 9007199254740992 :=
      Int.ediv_le_of_le_mul positive (by nlinarith)
    rw [roundCount]
    omega
  have left : 0 < host.turns := by
    rw [Host.turns, Word.half]
    split
    · omega
    · omega
  rw [Stmt.exec.eq_def]
  refine congrArg (checkpoint host loc >>= ·) (funext fun _ => funext fun m => ?_)
  simp only [← round_eq]
  refine count_eq_forM hfirst hlast hstep positive (by omega) (by omega) rfl left ?_
  rw [Host.turns, Word.half]
  split
  · exact .inl (by omega)
  · exact .inr ⟨by omega, by omega⟩

end Run

namespace Stmt

open Run

/-- **The body of a counting loop has no say in its rounds.** For bounds and a step that are
integers the counters are known before the loop runs: as many as fit between the bounds, each a step
above the one before. Whatever the body is, the loop ends well exactly if the rounds with these
counters do, and at the start of each of them the variable is its counter. A loop whose first bound
is above the last leaves all variables as they are. -/
theorem forLoop_takes_rounds {first last step : Number} {a b s : Int}
    (hfirst : first.value? = some (a : ℚ)) (hlast : last.value? = some (b : ℚ))
    (hstep : step.value? = some (s : ℚ)) (smallFirst : |a| ≤ 2 ^ 52) (smallLast : |b| ≤ 2 ^ 52)
    (positive : 1 ≤ s) (smallStep : s ≤ 2 ^ 52) :
    ∃ counters : List Number, counters.length = ((b - a) / s + 1).toNat ∧
      (∀ (k : Nat) (counter : Number), counters[k]? = some counter →
        counter.value? = some ((a + k * s : Int) : ℚ)) ∧
      ∀ (host : Host) (loc : Option Location) (var : Text) (body : List Stmt) (m : Machine),
        (∀ m', (Stmt.forLoop loc var first last step body).exec host host.turns m = (.ok (), m') ↔
          ∃ m₀ starts, checkpoint host loc m = (.ok (), m₀) ∧
            Rounds host loc var body counters starts m₀ m') ∧
        (∀ starts m₀ m', Rounds host loc var body counters starts m₀ m' →
          starts.length = counters.length ∧
          ∀ (k : Nat) (start : Machine), starts[k]? = some start →
            ∃ counter, counters[k]? = some counter ∧
              start.store.get? var = some (.number counter)) ∧
        (b < a → ((Stmt.forLoop loc var first last step body).exec host host.turns m).2.store =
          m.store) := by
  have bounds := abs_le.1 smallFirst
  have bounds' := abs_le.1 smallLast
  refine ⟨List.iterate (· + step) first (roundCount a b s), List.length_iterate _ _ _, ?_, ?_⟩
  · intro k counter counted
    exact value?_counter hfirst hstep positive (by omega) (by omega) counted
  · intro host loc var body m
    rw [exec_forLoop hfirst hlast hstep smallFirst smallLast positive smallStep]
    refine ⟨fun m' => checkpoint_forM_eq_ok, fun starts m₀ m' rounds => ?_, fun above => ?_⟩
    · exact ⟨rounds.length_starts, fun k start started => rounds.exists_counter started⟩
    · rw [(roundCount_eq_zero positive).2 above]
      exact store_checkpoint_forM_nil host loc var body m

/-- A body that counts with the variable of the loop around it and then makes it a text. -/
def overwriting : List Stmt :=
  [.forLoop none "i" (Number.ofNat 5) (Number.ofNat 9) (Number.ofNat 2) [],
    .assign none "i" (.text none "x")]

/-- A loop from 1 to 7 by steps of 3 with that body. -/
def overwritten : Stmt :=
  .forLoop none "i" (Number.ofNat 1) (Number.ofNat 7) (Number.ofNat 3) overwriting

/-- The loop takes three rounds. When they start the variable is 1, 4 and 7, though each of them
leaves a text in it. -/
theorem forLoop_takes_rounds_overwriting :
    ∃ (c c' c'' : Number) (start start' start'' m₀ m' : Machine),
      c.value? = some 1 ∧ c'.value? = some 4 ∧ c''.value? = some 7 ∧
      Rounds {} none "i" overwriting [c, c', c''] [start, start', start''] m₀ m' ∧
      start'.store.get? "i" = some (.number c') ∧ m'.store.get? "i" = some (.text "x") := by
  have value (n : Nat) (small : n ≤ 7) : (Number.ofNat n).value? = some ((n : Int) : ℚ) := by
    rw [Int.cast_natCast]
    exact Number.value?_ofNat (by omega)
  obtain ⟨counters, length, values, all⟩ :=
    forLoop_takes_rounds (value 1 (by decide)) (value 7 (by decide)) (value 3 (by decide))
      (by norm_num) (by norm_num) (by norm_num) (by norm_num)
  let m : Machine := ⟨.empty, 0, #[], ⟨.lines [], 0, 0, 0, false⟩⟩
  obtain ⟨ends, starting, -⟩ := all {} none "i" overwriting m
  have well : (overwritten.exec {} (Host.turns {}) m).1 = .ok () := by decide +kernel
  have text : (overwritten.exec {} (Host.turns {}) m).2.store.get? "i" = some (.text "x") := by
    decide +kernel
  rcases ran : overwritten.exec {} (Host.turns {}) m with ⟨r, m'⟩
  rw [ran] at well text
  obtain rfl : r = .ok () := well
  obtain ⟨c, c', c'', rfl⟩ := List.length_eq_three.1 length
  obtain ⟨m₀, starts, -, rounds⟩ := (ends m').1 ran
  obtain ⟨many, bound⟩ := starting starts m₀ m' rounds
  obtain ⟨start, start', start'', rfl⟩ := List.length_eq_three.1 (many.trans length)
  obtain ⟨counter, same, stored⟩ := bound 1 start' rfl
  cases same
  refine ⟨c, c', c'', start, start', start'', m₀, m', ?_, ?_, ?_, rounds, stored, text⟩
  · simpa using values 0 c rfl
  · simpa using values 1 c' rfl
  · simpa using values 2 c'' rfl

end Stmt

end Pseudocode

import Pseudocode.Proofs.Run.Turns

/-!
# A limit of steps only cuts a run off

A limited run and a run of the same program with a higher limit, or with none, do the same until the
limit is reached. There the limited run stops, and the other one can only go on: it logs more, reads
more and takes more steps.

Every turn of a loop passes a checkpoint. So a loop with as many turns as steps are left is stopped
by the limit before its turns are used up, whatever its body does and however its counter moves.
-/

namespace Pseudocode

/-- Nothing outside the program ever stops a run. -/
structure Host.Uninterrupted (host : Host) : Prop where
  write : host.cancelWrite = none
  read : host.cancelRead = none
  time : host.deadline = none

/-- A run that was at the first state can be at the second one later. -/
structure Machine.Onward (m m' : Machine) : Prop where
  steps : m.steps ≤ m'.steps
  log : m.log.toList <+: m'.log.toList
  input : ∀ lines, m.channels.input = .lines lines →
    ∃ rest, m'.channels.input = .lines rest ∧ rest <:+ lines
  canceled : m'.channels.canceled = m.channels.canceled

namespace Machine.Onward

theorem refl (m : Machine) : Onward m m :=
  ⟨Nat.le_refl _, List.prefix_refl _, fun lines h => ⟨lines, h, List.suffix_refl _⟩, rfl⟩

theorem trans {m m' m'' : Machine} (first : Onward m m') (rest : Onward m' m'') :
    Onward m m'' where
  steps := Nat.le_trans first.steps rest.steps
  log := first.log.trans rest.log
  input lines h := by
    obtain ⟨middle, hmiddle, left⟩ := first.input lines h
    obtain ⟨last, hlast, left'⟩ := rest.input middle hmiddle
    exact ⟨last, hlast, left'.trans left⟩
  canceled := rest.canceled.trans first.canceled

end Machine.Onward

/-- Reading from a list of lines takes lines from its front. -/
theorem Input.readUnless_lines (lines : List Text) (stop : Option ChannelError) (name : Text) :
    ∃ rest, ((Input.lines lines).readUnless stop name).2 = .lines rest ∧ rest <:+ lines := by
  cases stop with
  | some e => exact ⟨lines, rfl, List.suffix_refl _⟩
  | none =>
    cases lines with
    | nil => exact ⟨[], rfl, List.suffix_refl _⟩
    | cons line rest => exact ⟨rest, rfl, List.suffix_cons _ _⟩

namespace Run

open Machine (Onward)

variable {α β : Type} {host : Host}

/-- Whatever comes of a part of a run, the run has gone on. -/
def Advances (x : Run α) : Prop := ∀ m, Onward m (x m).2

theorem Advances.pure (a : α) : Advances (pure a) := fun m => .refl m

theorem Advances.bind {x : Run α} {f : α → Run β} (first : Advances x)
    (rest : ∀ a, Advances (f a)) : Advances (x >>= f) := by
  intro m
  have onward := first m
  rcases hx : x m with ⟨e | a, m'⟩
  · rw [Action.bind_of_error hx]
    simpa [hx] using onward
  · rw [Action.bind_of_ok hx]
    rw [hx] at onward
    exact onward.trans (rest a m')

theorem advances_checkpoint (loc : Option Location) : Advances (checkpoint host loc) := by
  intro m
  have counted : Onward m { m with steps := m.steps + 1 } := { Onward.refl m with steps := by simp }
  simp only [checkpoint]
  split
  · exact .refl m
  · split
    · exact counted
    · exact counted

/-- A checkpoint that does not interrupt the run counts a step. -/
theorem machine_of_checkpoint {m : Machine} (goes : interruption? host m = none)
    (loc : Option Location) : (checkpoint host loc m).2 = { m with steps := m.steps + 1 } := by
  simp only [checkpoint, goes]
  split
  · rfl
  · rfl

/-- A turn that passes a checkpoint takes a step. -/
theorem steps_lt_of_turn {loc : Option Location} {turn : Run α} (h : Advances turn)
    {m m' : Machine} {a : α} (ran : (checkpoint host loc >>= fun _ => turn) m = (.ok a, m')) :
    m.steps < m'.steps := by
  obtain ⟨_, m₁, passed, turned⟩ := Action.bind_eq_ok.1 ran
  have counted : m₁.steps = m.steps + 1 := by
    cases stops : interruption? host m with
    | some cause => simp [checkpoint, stops] at passed
    | none =>
      have state := machine_of_checkpoint stops loc
      rw [passed] at state
      exact congrArg Machine.steps state
  have onward := (h m₁).steps
  rw [turned] at onward
  exact Nat.lt_of_lt_of_le (by omega) onward

theorem Advances.loop {turn : Run Bool} (h : Advances turn) (turns : Nat) :
    Advances (loop turns turn) := by
  induction turns with
  | zero => exact fun m => .refl m
  | succ turns ih =>
    rw [loop_succ]
    refine h.bind fun again => ?_
    cases again with
    | true => exact ih
    | false => exact .pure ()

theorem Advances.count {turn : Number → Run Unit} (h : ∀ counter, Advances (turn counter))
    (last step : Number) (turns : Nat) (first : Number) :
    Advances (count last step turns turn first) := by
  induction turns generalizing first with
  | zero => exact fun m => .refl m
  | succ turns ih =>
    rw [count_succ]
    split
    · exact (h first).bind fun _ => ih _
    · exact .pure ()

/-- An answer that took no step. -/
structure Untimed (m : Machine) (r : Except Halt α × Machine) : Prop where
  onward : Onward m r.2
  steps : r.2.steps = m.steps
  answers : r.1 ≠ .error .exhausted

/-- A part of a run without a checkpoint. -/
def Plain (x : Run α) : Prop := ∀ m, Untimed m (x m)

namespace Plain

theorem bind {x : Run α} {f : α → Run β} (first : Plain x) (rest : ∀ a, Plain (f a)) :
    Plain (x >>= f) := by
  intro m
  have before := first m
  rcases hx : x m with ⟨e | a, m'⟩
  · rw [hx] at before
    rw [Action.bind_of_error hx]
    exact ⟨before.onward, before.steps, by simpa using before.answers⟩
  · rw [hx] at before
    rw [Action.bind_of_ok hx]
    have after := rest a m'
    exact ⟨before.onward.trans after.onward, after.steps.trans before.steps, after.answers⟩

theorem evaluating (x : Store → Eval α) : Plain (evaluating x) := by
  intro m
  simp only [Run.evaluating]
  split
  · exact ⟨{ Onward.refl m with }, rfl, nofun⟩
  · exact ⟨{ Onward.refl m with }, rfl, nofun⟩

theorem bindVariable (loc : Option Location) (name : Text) (v : Value) :
    Plain (bindVariable loc name v) := by
  intro m
  simp only [Run.bindVariable]
  split
  · exact ⟨{ Onward.refl m with }, rfl, nofun⟩
  · exact ⟨.refl m, rfl, nofun⟩

theorem bindArray (name : Text) (size : Nat) : Plain (bindArray name size) :=
  fun m => ⟨{ Onward.refl m with }, rfl, nofun⟩

theorem storeElement (id slot : Nat) (v : Value) : Plain (storeElement id slot v) :=
  fun m => ⟨{ Onward.refl m with }, rfl, nofun⟩

theorem writeLine (uninterrupted : host.Uninterrupted) (loc : Option Location) (line : Text) :
    Plain (writeLine host loc line) := by
  intro m
  simp only [Run.writeLine, uninterrupted.write]
  split
  · exact ⟨{ Onward.refl m with canceled := by simp }, rfl, nofun⟩
  · exact ⟨{ Onward.refl m with log := by simp, canceled := by simp }, rfl, nofun⟩

theorem readInto (uninterrupted : host.Uninterrupted) (t : Target) : Plain (readInto host t) := by
  refine bind (fun m => ?_) fun line => .bindVariable _ _ _
  have taken : ∀ lines, m.channels.input = .lines lines → ∃ rest,
      (m.channels.input.readUnless (interruption? host m) t.name).2 = .lines rest ∧
        rest <:+ lines := by
    intro lines h
    rw [h]
    exact Input.readUnless_lines lines _ _
  simp only [readLine, uninterrupted.read]
  split
  · exact ⟨{ Onward.refl m with log := by simp, input := taken, canceled := by simp }, rfl, nofun⟩
  · exact ⟨{ Onward.refl m with log := by simp, input := taken, canceled := by simp }, rfl, nofun⟩

end Plain

/-- The first answer is the second one, or it was cut off where the step after the `n`-th would have
been taken. -/
inductive CutOff (n : Nat) : Except Halt α × Machine → Except Halt α × Machine → Prop where
  | same {r : Except Halt α × Machine} (within : r.2.steps ≤ n)
      (notCanceled : r.2.channels.canceled = false) (answers : r.1 ≠ .error .exhausted) :
      CutOff n r r
  | stopped {loc : Option Location} {m : Machine} {r : Except Halt α × Machine}
      (steps : m.steps = n + 1) (onward : Onward m r.2) :
      CutOff n (.error (.failed ⟨loc, .stepLimit n⟩), m) r

theorem CutOff.bind {n : Nat} {x x' : Run α} {f f' : α → Run β} {m : Machine}
    (first : CutOff n (x m) (x' m))
    (rest : ∀ a m', x' m = (.ok a, m') → m'.steps ≤ n → m'.channels.canceled = false →
      CutOff n (f a m') (f' a m'))
    (onward : ∀ a, Advances (f' a)) : CutOff n ((x >>= f) m) ((x' >>= f') m) := by
  generalize hx : x m = r at first
  generalize hx' : x' m = r' at first
  cases first with
  | same within notCanceled answers =>
    obtain ⟨e | a, m'⟩ := r
    · rw [Action.bind_of_error hx, Action.bind_of_error hx']
      exact .same within notCanceled (by simpa using answers)
    · rw [Action.bind_of_ok hx, Action.bind_of_ok hx']
      exact rest a m' hx' within notCanceled
  | stopped steps later =>
    rw [Action.bind_of_error hx]
    refine .stopped steps ?_
    obtain ⟨e | a, m'⟩ := r'
    · rw [Action.bind_of_error hx']
      exact later
    · rw [Action.bind_of_ok hx']
      exact later.trans (onward a m')

/-- The first run is the second one, cut off after `n` steps. -/
structure Cut (n : Nat) (x x' : Run α) : Prop where
  cutOff {m : Machine} : m.steps ≤ n → m.channels.canceled = false → CutOff n (x m) (x' m)
  advances : Advances x'

namespace Cut

variable {n limit turns turns' : Nat}

theorem of_plain {x : Run α} (plain : Plain x) : Cut n x x where
  cutOff {m} within notCanceled :=
    .same ((plain m).steps ▸ within) ((plain m).onward.canceled.trans notCanceled) (plain m).answers
  advances m := (plain m).onward

theorem bind {x x' : Run α} {f f' : α → Run β} (first : Cut n x x')
    (rest : ∀ a, Cut n (f a) (f' a)) : Cut n (x >>= f) (x' >>= f') where
  cutOff within notCanceled :=
    (first.cutOff within notCanceled).bind (fun a _ _ => (rest a).cutOff) fun a => (rest a).advances
  advances := first.advances.bind fun a => (rest a).advances

theorem checkpoint (uninterrupted : host.Uninterrupted) (positive : 0 < n)
    (higher : limit = 0 ∨ n ≤ limit) (loc : Option Location) :
    Cut n (checkpoint { host with maxSteps := n } loc)
      (Run.checkpoint { host with maxSteps := limit } loc) where
  cutOff {m} within notCanceled := by
    have goes : ∀ k, interruption? { host with maxSteps := k } m = none := by
      simp [interruption?, notCanceled, uninterrupted.time]
    by_cases last : m.steps = n
    · -- The next step is one too many for the first run, and perhaps for the second.
      have tooMany : 0 < n ∧ n < m.steps + 1 := by omega
      simp only [Run.checkpoint, goes n, tooMany, and_self, if_true]
      refine .stopped (by simp [last]) ?_
      rw [← Run.checkpoint, machine_of_checkpoint (goes limit)]
      exact .refl _
    · have short : ¬ (0 < n ∧ n < m.steps + 1) := by omega
      have long : ¬ (0 < limit ∧ limit < m.steps + 1) := by omega
      simp only [Run.checkpoint, goes, short, long, if_false]
      exact .same (by simp; omega) notCanceled nofun
  advances := advances_checkpoint loc

/-- While the turns that are left are more than the steps that are left, a loop is cut off like its
turns. -/
theorem cutOff_loop {turn turn' : Run Bool} (h : Cut n turn turn')
    (counts : ∀ {m m' again}, turn' m = (.ok again, m') → m.steps < m'.steps)
    (more : turns ≤ turns') {m : Machine} (enough : n < m.steps + turns) (within : m.steps ≤ n)
    (notCanceled : m.channels.canceled = false) :
    CutOff n (loop turns turn m) (Run.loop turns' turn' m) := by
  induction turns generalizing turns' m with
  | zero => omega
  | succ turns ih =>
    obtain ⟨turns', rfl⟩ : ∃ k, turns' = k + 1 := ⟨turns' - 1, by omega⟩
    rw [loop_succ, loop_succ]
    refine (h.cutOff within notCanceled).bind ?_ ?_
    · intro again m' ran within' notCanceled'
      have counted := counts ran
      cases again with
      | true => exact ih (by omega) (by omega) within' notCanceled'
      | false => exact .same within' notCanceled' nofun
    · intro again
      cases again with
      | true => exact h.advances.loop turns'
      | false => exact .pure ()

theorem cutOff_count {turn turn' : Number → Run Unit}
    (h : ∀ counter, Cut n (turn counter) (turn' counter))
    (counts : ∀ {counter m m'}, turn' counter m = (.ok (), m') → m.steps < m'.steps)
    (more : turns ≤ turns') (last step first : Number) {m : Machine} (enough : n < m.steps + turns)
    (within : m.steps ≤ n) (notCanceled : m.channels.canceled = false) :
    CutOff n (count last step turns turn first m) (Run.count last step turns' turn' first m) := by
  induction turns generalizing turns' m first with
  | zero => omega
  | succ turns ih =>
    obtain ⟨turns', rfl⟩ : ∃ k, turns' = k + 1 := ⟨turns' - 1, by omega⟩
    rw [count_succ, count_succ]
    split
    · refine ((h first).cutOff within notCanceled).bind ?_ ?_
      · intro _ m' ran within' notCanceled'
        have counted := counts ran
        exact ih (by omega) _ (by omega) within' notCanceled'
      · exact fun _ => .count (fun counter => (h counter).advances) last step turns' _
    · exact .same within notCanceled nofun

end Cut

/-- A run with a limit is cut off from a run with a higher one, or with none. -/
theorem cut_congruence (uninterrupted : host.Uninterrupted) {n limit turns turns' : Nat}
    (positive : 0 < n) (higher : limit = 0 ∨ n ≤ limit) (enough : n < turns)
    (more : turns ≤ turns') :
    Congruence { host with maxSteps := n } { host with maxSteps := limit } turns turns'
      (Cut n) where
  pure a := .of_plain fun m => ⟨.refl m, rfl, nofun⟩
  bind first rest := first.bind rest
  checkpoint loc := .checkpoint uninterrupted positive higher loc
  value _ := .of_plain (.evaluating _)
  assign _ _ _ := .of_plain (.bind (.evaluating _) fun _ => .bindVariable _ _ _)
  dimension _ _ _ := .of_plain (.bind (.evaluating _) fun _ => .bindArray _ _)
  assignElement _ _ _ _ := .of_plain (.bind (.evaluating _) fun _ => .storeElement _ _ _)
  print _ _ := .of_plain (.bind (.evaluating _) fun _ =>
    .writeLine { uninterrupted with } _ _)
  read _ := .of_plain (.readInto { uninterrupted with } _)
  loop loc {turn turn'} h := by
    have turns := Cut.bind (.checkpoint uninterrupted positive higher loc) fun _ => h
    refine ⟨fun within notCanceled => ?_, turns.advances.loop _⟩
    exact turns.cutOff_loop (fun ran => steps_lt_of_turn h.advances ran) more (by omega) within
      notCanceled
  count loc var first last step {body body'} h := by
    have bound counter := Cut.bind (n := n) (.of_plain (.bindVariable loc var (.number counter)))
      fun _ => h
    have turns counter := Cut.bind (.checkpoint uninterrupted positive higher loc)
      fun _ => bound counter
    refine ⟨fun within notCanceled => ?_, .count (fun counter => (turns counter).advances) _ _ _ _⟩
    exact Cut.cutOff_count turns (fun ran => steps_lt_of_turn (bound _).advances ran) more last step
      first (by omega) within notCanceled

end Run

/-- Of two runs of a program on the same lines, the first is the second one, cut off by a limit of
`n` steps. -/
structure Report.CutOff (n : Nat) (lines : List Text) (short whole : Report × Channels) : Prop where
  same : whole.1.steps ≤ n → short = whole
  error : n < whole.1.steps → ∃ e, short.1.error? = some e ∧ e.fault = .stepLimit n ∧
    e.fault.message = "step limit of " ++ Text.ofNat n ++ " exceeded"
  output : n < whole.1.steps → short.1.output <+: whole.1.output
  requests : n < whole.1.steps → short.1.requests <+: whole.1.requests
  consumed : n < whole.1.steps → ∃ taken rest taken' rest',
    lines = taken ++ rest ∧ short.2.input = .lines rest ∧
      lines = taken' ++ rest' ∧ whole.2.input = .lines rest' ∧ taken <+: taken'

namespace Program

variable {host : Host} {channels : Channels} {lines : List Text} {n : Nat}

theorem cutOff_ofAnswer {m : Machine} {short whole : Except Halt Unit × Machine}
    (input : m.channels.input = .lines lines) (cut : Run.CutOff n short whole)
    (shortOnward : m.Onward short.2) (wholeOnward : m.Onward whole.2) :
    Report.CutOff n lines (Report.ofAnswer short) (Report.ofAnswer whole) := by
  cases cut with
  | same within _ _ =>
    have notLonger : ¬ n < short.2.steps := by omega
    exact ⟨fun _ => rfl, fun h => absurd h notLonger, fun h => absurd h notLonger,
      fun h => absurd h notLonger, fun h => absurd h notLonger⟩
  | stopped steps onward =>
    obtain ⟨rest, hrest, taken, htaken⟩ := shortOnward.input lines input
    obtain ⟨rest', hrest', more, hmore⟩ := onward.input rest hrest
    refine ⟨?_, fun _ => ⟨_, rfl, rfl, rfl⟩, fun _ => ?_, fun _ => ?_, fun _ => ?_⟩
    · intro within
      have later : _ ≤ whole.2.steps := onward.steps
      have within : whole.2.steps ≤ n := within
      omega
    · exact onward.log.filterMap _
    · exact onward.log.filterMap _
    · refine ⟨taken, rest, taken ++ more, rest', htaken.symm, hrest, ?_, hrest', ?_⟩
      · rw [List.append_assoc, hmore, htaken]
      · exact List.prefix_append _ _

section Limited

variable (uninterrupted : host.Uninterrupted) (notCanceled : channels.canceled = false)
  (positive : 0 < n) (p : Program)
include uninterrupted notCanceled positive

omit uninterrupted notCanceled in
theorem turns_limited : Host.turns { host with maxSteps := n } = n + 2 :=
  if_neg (Nat.ne_of_gt positive)

omit notCanceled in
/-- The limited run and the same run with another limit and as many turns. -/
theorem cut_block {limit turns : Nat} (higher : limit = 0 ∨ n ≤ limit) (more : n + 2 ≤ turns) :
    Run.Cut n (execBlock { host with maxSteps := n } (n + 2) p.body)
      (execBlock { host with maxSteps := limit } turns p.body) :=
  (Run.cut_congruence uninterrupted positive higher (by omega) more).block p.body

/-- A run with a limit has an answer after at most one step more. -/
theorem run_ends_within :
    (p.run { host with maxSteps := n } channels).1.halt ≠ some .exhausted ∧
      (p.run { host with maxSteps := n } channels).1.steps ≤ n + 1 := by
  have self := cut_block uninterrupted positive p (.inr (Nat.le_refl n)) (Nat.le_refl _)
  have cut := self.cutOff (m := ⟨.empty, 0, #[], channels⟩) (Nat.zero_le n) notCanceled
  rw [run, turns_limited positive, runFor_eq]
  generalize execBlock _ _ _ _ = r at cut
  cases cut with
  | same within _ answers =>
    exact ⟨fun h => answers (Halt.ofAnswer_eq_some.1 h), Nat.le_succ_of_le within⟩
  | stopped steps onward => exact ⟨nofun, Nat.le_of_eq steps⟩

/-- A run with a limit is cut off from any run with a higher one, or with none, that has an
answer. -/
theorem run_cutOff (input : channels.input = .lines lines) {limit turns : Nat}
    (higher : limit = 0 ∨ n ≤ limit)
    (answers : (p.runFor turns { host with maxSteps := limit } channels).1.halt ≠ some .exhausted) :
    Report.CutOff n lines (p.run { host with maxSteps := n } channels)
      (p.runFor turns { host with maxSteps := limit } channels) := by
  -- With more turns the whole run is the same, so it may be given as many as the limited one.
  rw [← runFor_of_le (Nat.le_max_left turns (n + 2)) answers]
  rw [run, turns_limited positive, runFor_eq, runFor_eq]
  have self := cut_block uninterrupted positive p (.inr (Nat.le_refl n)) (Nat.le_refl _)
  have other := cut_block uninterrupted positive p higher (Nat.le_max_right turns (n + 2))
  exact cutOff_ofAnswer input (other.cutOff (Nat.zero_le n) notCanceled) (self.advances _)
    (other.advances _)

end Limited

/-- A limit of steps bounds every run and only cuts it off. A limited run ends after at most one
step more than the limit. It is cut off from every run with a higher limit, and from the run without
a limit when that one ends, which is when some number of turns is enough for it. -/
theorem run_step_limit (uninterrupted : host.Uninterrupted)
    (notCanceled : channels.canceled = false) (input : channels.input = .lines lines)
    (positive : 0 < n) (p : Program) :
    ((p.run { host with maxSteps := n } channels).1.halt ≠ some .exhausted ∧
      (p.run { host with maxSteps := n } channels).1.steps ≤ n + 1) ∧
    (∀ limit, n ≤ limit →
      Report.CutOff n lines (p.run { host with maxSteps := n } channels)
        (p.run { host with maxSteps := limit } channels)) ∧
    (∀ turns, (p.runFor turns { host with maxSteps := 0 } channels).1.halt ≠ some .exhausted →
      Report.CutOff n lines (p.run { host with maxSteps := n } channels)
        (p.runFor turns { host with maxSteps := 0 } channels)) := by
  refine ⟨run_ends_within uninterrupted notCanceled positive p, ?_, ?_⟩
  · intro limit higher
    exact run_cutOff uninterrupted notCanceled positive p input (.inr higher)
      (run_ends_within uninterrupted notCanceled (Nat.lt_of_lt_of_le positive higher) p).1
  · intro turns answers
    exact run_cutOff uninterrupted notCanceled positive p input (.inl rfl) answers

/-- A loop that prints forever. -/
def endlessPrint : Program :=
  ⟨"p", [.repeatLoop none [.print none [.text none "a"]] (.boolean none false)]⟩

/-- With a limit of five steps the endless loop prints a line more than with a limit of three. -/
theorem run_step_limit_endless :
    Report.CutOff 3 [] (endlessPrint.run { maxSteps := 3 } ⟨.lines [], 0, 0, 0, false⟩)
        (endlessPrint.run { maxSteps := 5 } ⟨.lines [], 0, 0, 0, false⟩) ∧
      (endlessPrint.run { maxSteps := 3 } ⟨.lines [], 0, 0, 0, false⟩).1.output = [("a" : Text)] ∧
      (endlessPrint.run { maxSteps := 5 } ⟨.lines [], 0, 0, 0, false⟩).1.output =
        [("a" : Text), "a"] ∧
      (endlessPrint.run { maxSteps := 5 } ⟨.lines [], 0, 0, 0, false⟩).1.steps = 6 := by
  refine ⟨?_, by decide +kernel, by decide +kernel, by decide +kernel⟩
  have uninterrupted : Host.Uninterrupted {} := ⟨rfl, rfl, rfl⟩
  exact (run_step_limit uninterrupted rfl rfl (by decide) endlessPrint).2.1 5 (by decide)

end Program

end Pseudocode

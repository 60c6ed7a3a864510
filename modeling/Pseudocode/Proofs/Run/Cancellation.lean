import Pseudocode.Proofs.Run.Budget
import Pseudocode.Proofs.Run.Heeding

/-!
# Cancellation only cuts a run short

A host may be interrupted right after a write or a read, or before the run. Until then the run is
the one that is never interrupted. From then on it comes to the next checkpoint or to the next
request for a line, and stops there. On the way it only evaluates expressions; after a read it also
stores the line that was read. Where no checkpoint and no request is left, the run ends as it would
have.
-/

namespace Pseudocode

/-- A host that is interrupted right after a write and right after a read, by their numbers. Number
zero is before the run. -/
def Host.interrupting (host : Host) (write read : Option Nat) : Host :=
  { host with cancelWrite := write, cancelRead := read }

namespace Machine

/-- The state with the host interrupted. -/
def interrupted (m : Machine) : Machine := { m with channels.canceled := true }

/-- The lines that were written. -/
def output (m : Machine) : List Text := m.log.toList.filterMap Event.line?

end Machine

namespace Occurrence

/-- Whether an effect heeds an interruption. -/
def heeds (o : Occurrence) : Bool := o.effect.heeds

/-- Whether the host is interrupted right after an effect. -/
def strikes (write read : Option Nat) (o : Occurrence) : Bool :=
  match o with
  | ⟨.writeLine _ _, _, after⟩ => write == some after.channels.writes
  | ⟨.readLine _ _, _, after⟩ => read == some after.channels.reads
  | _ => false

/-- The same effect, with the host interrupted after it. -/
def interrupted (o : Occurrence) : Occurrence := { o with after := o.after.interrupted }

/-- A store that is left once the host was interrupted after an effect: the one it left, or that
with the line that was read in its variable. -/
def Leaves (o : Occurrence) (store : Store) : Prop :=
  store = o.after.store ∨
    match o with
    | ⟨.readLine _ name, .ok line, after⟩ => after.store.set? name (.ofInput line) = some store
    | _ => False

end Occurrence

namespace Machine

/-- Nothing is written, read or stored between two states. -/
structure Idle (m m' : Machine) : Prop where
  output : m'.output = m.output
  input : m'.channels.input = m.channels.input
  store : m'.store = m.store

theorem Idle.refl (m : Machine) : Idle m m := ⟨rfl, rfl, rfl⟩

theorem Idle.trans {m m' m'' : Machine} (first : Idle m m') (rest : Idle m' m'') : Idle m m'' :=
  ⟨rest.output.trans first.output, rest.input.trans first.input, rest.store.trans first.store⟩

theorem Idle.interrupted (m : Machine) : Idle m m.interrupted := ⟨rfl, rfl, rfl⟩

theorem interrupted_of_canceled {m : Machine} (h : m.channels.canceled = true) :
    m.interrupted = m := by
  obtain ⟨store, steps, log, input, writes, reads, drawn, canceled⟩ := m
  cases h
  rfl

end Machine

namespace Run

variable {host : Host} {m : Machine}

theorem interruption?_eq_none (uninterrupted : host.Uninterrupted)
    (notCanceled : m.channels.canceled = false) (write read : Option Nat) :
    interruption? (host.interrupting write read) m = none := by
  have noDeadline : (host.interrupting write read).deadline = none := uninterrupted.time
  simp [interruption?, notCanceled, noDeadline]

end Run

/-- An evaluation does the same whether the host was interrupted or not. -/
theorem Run.evaluating_interrupted {α : Type} (x : Store → Eval α) (m : Machine) :
    ∃ r m', Run.evaluating x m = (r, m') ∧
      Run.evaluating x m.interrupted = (r, m'.interrupted) ∧ m.Idle m' := by
  rcases h : x m.store m.channels.drawn with ⟨e | a, drawn⟩
  · refine ⟨.error (.failed e), { m with channels.drawn := drawn }, ?_, ?_, ⟨rfl, rfl, rfl⟩⟩
    · simp [Run.evaluating, h]
    · simp [Run.evaluating, Machine.interrupted, h]
  · refine ⟨.ok a, { m with channels.drawn := drawn }, ?_, ?_, ⟨rfl, rfl, rfl⟩⟩
    · simp [Run.evaluating, h]
    · simp [Run.evaluating, Machine.interrupted, h]

namespace Effect

variable {α : Type} {host : Host} {m : Machine}

theorem perform_of_evaluates {effect : Effect α} (evaluates : effect.evaluates = true)
    (host : Host) (write read : Option Nat) (m : Machine) :
    ∃ r m', effect.perform host m = (r, m') ∧
      effect.perform (host.interrupting write read) m.interrupted = (r, m'.interrupted) ∧
      m.Idle m' := by
  cases effect with
  | value e => exact Run.evaluating_interrupted (fun store => e.eval host.draws store) m
  | declaredSize loc name size =>
    exact Run.evaluating_interrupted (Run.declaredSize host loc name size) m
  | elementTarget loc name index e =>
    exact Run.evaluating_interrupted (Run.elementTarget host loc name index e) m
  | printedLine exprs => exact Run.evaluating_interrupted (Run.printedLine host exprs) m
  | _ => cases evaluates

/-- An effect that heeds an interruption fails for it. -/
theorem perform_of_heeds {effect : Effect α} (heeds : effect.heeds = true) (host : Host)
    (m : Machine) :
    ∃ e m', effect.perform host m.interrupted = (.error (.failed e), m') ∧
      e.fault.cause? = some .canceled ∧ m.Idle m' ∧ m'.channels.canceled = true := by
  cases effect with
  | checkpoint loc => exact ⟨_, _, rfl, rfl, .interrupted m, rfl⟩
  | readLine loc name =>
    refine ⟨⟨loc, .readFailed name .canceled⟩, _, rfl, rfl, ⟨?_, rfl, rfl⟩, rfl⟩
    simp [Machine.output, Machine.interrupted, Input.promptUnless, Run.interruption?, Event.line?]
  | _ => cases heeds

theorem canceled_of_perform (uninterrupted : host.Uninterrupted) (effect : Effect α)
    (m : Machine) : (effect.perform host m).2.channels.canceled = m.channels.canceled := by
  cases effect with
  | checkpoint loc => exact (Run.advances_checkpoint loc m).canceled
  | value | declaredSize | elementTarget | printedLine =>
    exact (Run.Plain.evaluating _ m).onward.canceled
  | bindVariable loc name v => exact (Run.Plain.bindVariable loc name v m).onward.canceled
  | bindArray | storeElement => rfl
  | writeLine loc line => exact (Run.Plain.writeLine uninterrupted loc line m).onward.canceled
  | readLine loc name =>
    simp only [perform, Run.readLine, uninterrupted.read]
    split
    · simp
    · simp

/-- Before it is interrupted, the host answers as if it never were. -/
theorem perform_interrupting (uninterrupted : host.Uninterrupted)
    (notCanceled : m.channels.canceled = false) (effect : Effect α) {r : Except Halt α}
    {m' : Machine} (performed : effect.perform host m = (r, m')) (write read : Option Nat) :
    effect.perform (host.interrupting write read) m =
      (r, if (Occurrence.mk effect r m').strikes write read then m'.interrupted else m') := by
  have goes := Run.interruption?_eq_none uninterrupted notCanceled
  have goes' : Run.interruption? host m = none := goes host.cancelWrite host.cancelRead
  cases effect with
  | checkpoint loc =>
    refine Eq.trans ?_ performed
    simp only [perform, Run.checkpoint, goes, goes']
    rfl
  | writeLine loc line =>
    simp only [perform, Run.writeLine, uninterrupted.write, notCanceled] at performed
    simp only [perform, Run.writeLine, Host.interrupting, notCanceled]
    split at performed
    · next fails =>
      cases performed
      cases strikes : write == some (m.channels.writes + 1) with
      | true | false => simp [fails, Occurrence.strikes, strikes, Machine.interrupted]
    · next writes =>
      cases performed
      cases strikes : write == some (m.channels.writes + 1) with
      | true | false => simp [writes, Occurrence.strikes, strikes, Machine.interrupted]
  | readLine loc name =>
    simp only [perform, Run.readLine, uninterrupted.read, notCanceled, goes'] at performed
    simp only [perform, Run.readLine, notCanceled, goes]
    split at performed
    · next line hline =>
      cases performed
      cases strikes : read == some (m.channels.reads + 1) with
      | true | false => simp [Occurrence.strikes, strikes, Machine.interrupted, Host.interrupting]
    · next e he =>
      cases performed
      cases strikes : read == some (m.channels.reads + 1) with
      | true | false => simp [Occurrence.strikes, strikes, Machine.interrupted, Host.interrupting]
  | _ => exact performed

end Effect

/-- A run that was interrupted at a moment, beside the run that was not. `later` are the effects
after that moment of the run that was not, and `laterCut` those of the run that was. -/
structure Report.Interrupted (moment : Machine) (leaves : Store → Prop)
    (later laterCut : List Occurrence) (whole cut : Report × Channels) : Prop where
  canceled : cut.2.canceled = true
  output : cut.1.output = moment.output
  input : cut.2.input = moment.channels.input
  store : leaves cut.1.store
  onTheWay : ∀ o ∈ laterCut, o.after.output = moment.output ∧
    o.after.channels.input = moment.channels.input ∧ leaves o.after.store
  stopped : (∃ o ∈ later, o.heeds = true) →
    ∃ e, cut.1.error? = some e ∧ e.fault.cause? = some .canceled
  same : (∀ o ∈ later, o.heeds = false) →
    cut.1 = whole.1 ∧ cut.2 = { whole.2 with canceled := true } ∧
      laterCut = later.map Occurrence.interrupted

namespace Report.Interrupted

variable {moment moment' : Machine} {leaves : Store → Prop}
  {later laterCut : List Occurrence} {whole cut : Report × Channels}

/-- An effect of both runs that heeds no interruption, and neither writes nor reads, may stand
before the others. -/
theorem cons (h : Interrupted moment' leaves later laterCut whole cut) {o : Occurrence}
    (unheeding : o.heeds = false) (after : o.after = moment')
    (output : moment'.output = moment.output)
    (input : moment'.channels.input = moment.channels.input) (left : leaves moment'.store) :
    Interrupted moment leaves (o :: later) (o.interrupted :: laterCut) whole cut where
  canceled := h.canceled
  output := h.output.trans output
  input := h.input.trans input
  store := h.store
  onTheWay := by
    rw [List.forall_mem_cons]
    refine ⟨?_, fun x hx => ?_⟩
    · subst after
      exact ⟨output, input, left⟩
    · obtain ⟨sameOutput, sameInput, leaves⟩ := h.onTheWay x hx
      exact ⟨sameOutput.trans output, sameInput.trans input, leaves⟩
  stopped := by
    rintro ⟨x, hx, heeds⟩
    rcases List.mem_cons.1 hx with rfl | hx
    · rw [unheeding] at heeds
      cases heeds
    · exact h.stopped ⟨x, hx, heeds⟩
  same := by
    intro none
    obtain ⟨report, channels, same⟩ := h.same fun x hx => none x (List.mem_cons_of_mem _ hx)
    exact ⟨report, channels, by rw [same]; rfl⟩

theorem mono (h : Interrupted moment leaves later laterCut whole cut) (leaves' : Store → Prop)
    (weaker : ∀ store, leaves store → leaves' store) :
    Interrupted moment leaves' later laterCut whole cut :=
  { h with
    store := weaker _ h.store
    onTheWay := fun o ho =>
      have ⟨output, input, left⟩ := h.onTheWay o ho
      ⟨output, input, weaker _ left⟩ }

/-- Both runs end at the moment, and in the same way. -/
theorem ended (r : Except Halt Unit) (moment : Machine) :
    Interrupted moment (· = moment.store) [] [] (Report.ofAnswer (r, moment))
      (Report.ofAnswer (r, moment.interrupted)) where
  canceled := rfl
  output := rfl
  input := rfl
  store := rfl
  onTheWay := by simp
  stopped := by simp
  same _ := ⟨rfl, rfl, rfl⟩

end Report.Interrupted

namespace Script

variable {α : Type} {host : Host} {write read : Option Nat} {m : Machine}

/-- The first effect of a script that has one is asked for. -/
theorem exists_mem_history_act {β : Type} (effect : Effect β) (next : β → Script α)
    (host : Host) (m : Machine) :
    ∃ o ∈ (act effect next).history host m, o.heeds = effect.heeds := by
  rcases h : effect.perform host m with ⟨halt | b, m'⟩
  · rw [history_act_of_error h]
    exact ⟨_, List.mem_singleton_self _, rfl⟩
  · rw [history_act_of_ok h]
    exact ⟨_, List.mem_cons_self, rfl⟩

/-- Once the host was interrupted, a quiet script only evaluates until it is stopped. -/
theorem Quiet.interrupted {x : Script Unit} (quiet : x.Quiet True) (host : Host)
    (write read : Option Nat) (m : Machine) :
    Report.Interrupted m (· = m.store) (x.history host m)
      (x.history (host.interrupting write read) m.interrupted)
      (Report.ofAnswer (x.run host m))
      (Report.ofAnswer (x.run (host.interrupting write read) m.interrupted)) := by
  induction x generalizing m with
  | done a => exact .ended (.ok a) m
  | exhausted => exact .ended (.error .exhausted) m
  | act effect next ih =>
    rcases quiet with heeds | ⟨evaluates, quiet⟩
    · obtain ⟨e, m', fails, cause, idle, canceled⟩ :=
        Effect.perform_of_heeds heeds (host.interrupting write read) m
      rw [run_act_of_error fails, history_act_of_error fails]
      refine ⟨canceled, idle.output, idle.input, idle.store, ?_, fun _ => ⟨e, rfl, cause⟩, ?_⟩
      · intro o ho
        rw [List.mem_singleton] at ho
        subst ho
        exact ⟨idle.output, idle.input, idle.store⟩
      · intro none
        obtain ⟨o, ho, same⟩ := exists_mem_history_act effect next host m
        rw [none o ho, heeds] at same
        cases same
    · obtain ⟨r, m', same, cut, idle⟩ := Effect.perform_of_evaluates evaluates host write read m
      have unheeding : effect.heeds = false := by
        cases effect with
        | checkpoint | readLine => cases evaluates
        | _ => rfl
      cases r with
      | error halt =>
        rw [run_act_of_error same, run_act_of_error cut, history_act_of_error same,
          history_act_of_error cut]
        have ended := Report.Interrupted.ended (.error halt) m'
        have left := ended.mono (· = m.store) fun _ h => h.trans idle.store
        exact left.cons unheeding rfl idle.output idle.input idle.store
      | ok b =>
        rw [run_act_of_ok same, run_act_of_ok cut, history_act_of_ok same, history_act_of_ok cut]
        have left := (ih b (quiet b) m').mono (· = m.store) fun _ h => h.trans idle.store
        exact left.cons unheeding rfl idle.output idle.input idle.store

end Script

/-- A run that may be interrupted, beside the run that is not, by the effects and the answers of
both. Either there is no moment of interruption and the two are one, or they are one up to the
first such moment. -/
inductive Report.CutShort (write read : Option Nat) (history cutHistory : List Occurrence)
    (whole cut : Report × Channels) : Prop where
  | untouched (never : ∀ o ∈ history, o.strikes write read = false)
      (sameHistory : cutHistory = history) (same : cut = whole)
  | struck {before later laterCut : List Occurrence} {moment : Occurrence}
      (notBefore : ∀ o ∈ before, o.strikes write read = false)
      (strikes : moment.strikes write read = true)
      (wholeHistory : history = before ++ moment :: later)
      (sameUpToThere : cutHistory = before ++ moment.interrupted :: laterCut)
      (after : Report.Interrupted moment.after moment.Leaves later laterCut whole cut)

theorem Report.CutShort.cons {write read : Option Nat} {history cutHistory : List Occurrence}
    {whole cut : Report × Channels} (h : CutShort write read history cutHistory whole cut)
    {o : Occurrence} (notYet : o.strikes write read = false) :
    CutShort write read (o :: history) (o :: cutHistory) whole cut := by
  cases h with
  | untouched never sameHistory same =>
    exact .untouched (List.forall_mem_cons.2 ⟨notYet, never⟩) (by rw [sameHistory]) same
  | struck notBefore strikes wholeHistory sameUpToThere after =>
    subst wholeHistory sameUpToThere
    exact .struck (List.forall_mem_cons.2 ⟨notYet, notBefore⟩) strikes rfl rfl after

namespace Script

variable {host : Host} {write read : Option Nat}

/-- A script that goes on after the moment of interruption is quiet, but for the line that was just
read. -/
theorem SettledBy.interrupted {α : Type} {effect : Effect α} {next : α → Script Unit}
    (settled : SettledBy next effect) {a : α} {m : Machine}
    (strikes : (Occurrence.mk effect (.ok a) m).strikes write read = true) :
    Report.Interrupted m (Occurrence.mk effect (.ok a) m).Leaves ((next a).history host m)
      ((next a).history (host.interrupting write read) m.interrupted)
      (Report.ofAnswer ((next a).run host m))
      (Report.ofAnswer ((next a).run (host.interrupting write read) m.interrupted)) := by
  cases effect with
  | writeLine => exact ((settled a).interrupted host write read m).mono _ fun _ => .inl
  | readLine loc name =>
    obtain ⟨rest, stored, quiet⟩ := settled a
    rw [stored]
    rcases h : m.store.set? name (.ofInput a) with _ | store
    · -- The variable is a constant, and both runs fail for it.
      have fails (host : Host) (m' : Machine) (same : m'.store = m.store) :
          (Effect.bindVariable loc name (.ofInput a)).perform host m' =
            (.error (.failed ⟨loc, .constantAssigned name⟩), m') := by
        simp [Effect.perform, Run.bindVariable, same, h]
      have failsWhole := fails host m rfl
      have failsCut := fails (host.interrupting write read) m.interrupted rfl
      rw [run_act_of_error failsWhole, run_act_of_error failsCut, history_act_of_error failsWhole,
        history_act_of_error failsCut]
      have ended := Report.Interrupted.ended (.error (.failed ⟨loc, .constantAssigned name⟩)) m
      exact (ended.mono _ fun _ => .inl).cons rfl rfl rfl rfl (.inl rfl)
    · have stores (host : Host) (m' : Machine) (same : m'.store = m.store) :
          (Effect.bindVariable loc name (.ofInput a)).perform host m' =
            (.ok (), { m' with store }) := by
        simp [Effect.perform, Run.bindVariable, same, h]
      have storesWhole := stores host m rfl
      have storesCut := stores (host.interrupting write read) m.interrupted rfl
      rw [run_act_of_ok storesWhole, run_act_of_ok storesCut, history_act_of_ok storesWhole,
        history_act_of_ok storesCut]
      have left : (Occurrence.mk (.readLine loc name) (.ok a) m).Leaves store := .inr h
      have rest := quiet.interrupted host write read { m with store }
      exact (rest.mono _ fun _ same => same ▸ left).cons rfl rfl rfl rfl left
  | _ => cases strikes

/-- An orderly script is cut short where the host is interrupted. -/
theorem Orderly.cutShort {x : Script Unit} (orderly : x.Orderly)
    (uninterrupted : host.Uninterrupted) (write read : Option Nat) {m : Machine}
    (notCanceled : m.channels.canceled = false) :
    Report.CutShort write read (x.history host m) (x.history (host.interrupting write read) m)
      (Report.ofAnswer (x.run host m))
      (Report.ofAnswer (x.run (host.interrupting write read) m)) := by
  induction x generalizing m with
  | done | exhausted => exact .untouched (by simp [history]) rfl rfl
  | act effect next ih =>
    obtain ⟨settled, orderly⟩ := orderly
    rcases performed : effect.perform host m with ⟨r, m'⟩
    have performedCut := Effect.perform_interrupting uninterrupted notCanceled effect performed
      write read
    have notCanceled' : m'.channels.canceled = false := by
      have unchanged := Effect.canceled_of_perform uninterrupted effect m
      rw [performed] at unchanged
      exact unchanged.trans notCanceled
    cases strikes : (Occurrence.mk effect r m').strikes write read with
    | false =>
      rw [strikes, if_neg Bool.false_ne_true] at performedCut
      cases r with
      | error halt =>
        rw [run_act_of_error performed, run_act_of_error performedCut,
          history_act_of_error performed, history_act_of_error performedCut]
        exact .untouched (by simpa using strikes) rfl rfl
      | ok b =>
        rw [run_act_of_ok performed, run_act_of_ok performedCut, history_act_of_ok performed,
          history_act_of_ok performedCut]
        exact (ih b (orderly b) notCanceled').cons strikes
    | true =>
      rw [strikes, if_pos rfl] at performedCut
      have first : ∀ o ∈ ([] : List Occurrence), o.strikes write read = false := by simp
      cases r with
      | error halt =>
        rw [run_act_of_error performed, run_act_of_error performedCut,
          history_act_of_error performed, history_act_of_error performedCut]
        have ended := Report.Interrupted.ended (.error halt) m'
        exact .struck first strikes rfl rfl (ended.mono _ fun _ => .inl)
      | ok b =>
        rw [run_act_of_ok performed, run_act_of_ok performedCut, history_act_of_ok performed,
          history_act_of_ok performedCut]
        exact .struck first strikes rfl rfl (settled.interrupted strikes)

end Script

namespace Effect

variable {α : Type}

/-- No effect runs out of turns. -/
theorem answers (effect : Effect α) (host : Host) (m : Machine) :
    (effect.perform host m).1 ≠ .error .exhausted := by
  cases effect with
  | checkpoint loc =>
    simp only [perform, Run.checkpoint]
    split
    · simp
    · split
      · simp
      · simp
  | value | declaredSize | elementTarget | printedLine =>
    exact (Run.Plain.evaluating _ m).answers
  | bindVariable loc name v => exact (Run.Plain.bindVariable loc name v m).answers
  | bindArray | storeElement => simp [perform, Run.bindArray, Run.storeElement]
  | writeLine loc line =>
    simp only [perform, Run.writeLine]
    split
    · simp
    · simp
  | readLine loc name =>
    simp only [perform, Run.readLine]
    split
    · simp
    · simp

end Effect

namespace Script

variable {α : Type} {x x' : Script α} {host : Host} {m : Machine}

/-- Once the host was interrupted, a quiet script ends whatever turns are left. -/
theorem Quiet.answers (quiet : x.Quiet False) (canceled : m.channels.canceled = true) :
    (x.run host m).1 ≠ .error .exhausted := by
  induction x generalizing m with
  | done a => simp [run]
  | exhausted => exact quiet.elim
  | act effect next ih =>
    rw [← Machine.interrupted_of_canceled canceled]
    rcases quiet with heeds | ⟨evaluates, quiet⟩
    · obtain ⟨e, m', fails, _⟩ := Effect.perform_of_heeds heeds host m
      rw [run_act_of_error fails]
      simp
    · obtain ⟨r, m', _, performed, _⟩ :=
        Effect.perform_of_evaluates evaluates host host.cancelWrite host.cancelRead m
      have performed : effect.perform host m.interrupted = (r, m'.interrupted) := performed
      cases r with
      | error halt =>
        have answers := effect.answers host m.interrupted
        rw [performed] at answers
        rw [run_act_of_error performed]
        simpa using answers
      | ok b =>
        rw [run_act_of_ok performed]
        exact ih b (quiet b) rfl

/-- With more turns a run does what it did, and perhaps more. -/
theorem Lengthens.history_prefix (h : Lengthens x x') (host : Host) (m : Machine) :
    x.history host m <+: x'.history host m := by
  induction h generalizing m with
  | done a => exact List.prefix_refl _
  | further _ => exact List.nil_prefix
  | act effect _ ih =>
    rcases performed : effect.perform host m with ⟨halt | b, m'⟩
    · refine ⟨[], ?_⟩
      rw [List.append_nil, history_act_of_error performed, history_act_of_error performed]
    · rw [history_act_of_ok performed, history_act_of_ok performed, List.cons_prefix_cons]
      exact ⟨rfl, ih b m'⟩

/-- A run that was interrupted comes to its end with more turns. -/
theorem Lengthens.answers (h : Lengthens x x')
    (canceled : (x.run host m).2.channels.canceled = true) :
    (x'.run host m).1 ≠ .error .exhausted := by
  induction h generalizing m with
  | done a => simp [run]
  | further quiet => exact quiet.answers canceled
  | act effect _ ih =>
    rcases performed : effect.perform host m with ⟨halt | b, m'⟩
    · have answers := effect.answers host m
      rw [performed] at answers
      rw [run_act_of_error performed]
      simpa using answers
    · rw [run_act_of_ok performed] at canceled ⊢
      exact ih b canceled

end Script

namespace Program

/-- A run on a host that has run nothing before. -/
def runAlone (turns : Nat) (host : Host) (p : Program) (input : Input) : Report × Channels :=
  p.runFor turns host (.initial host input)

/-- The effects of a run on a host that has run nothing before. -/
def historyAlone (turns : Nat) (host : Host) (p : Program) (input : Input) : List Occurrence :=
  p.history turns host (.initial host input)

/-- What becomes of a run of a program when its host is interrupted right after a write or right
after a read, by their numbers. Number zero is before the run. -/
structure CutShort (turns : Nat) (host : Host) (write read : Option Nat) (input : Input)
    (p : Program) : Prop where
  beforeRun : write = some 0 ∨ read = some 0 →
    Report.Interrupted ⟨.empty, 0, #[], .initial host input⟩ (· = .empty)
      (p.historyAlone turns host input)
      (p.historyAlone turns (host.interrupting write read) input)
      (p.runAlone turns host input) (p.runAlone turns (host.interrupting write read) input)
  inRun : ¬ (write = some 0 ∨ read = some 0) →
    Report.CutShort write read (p.historyAlone turns host input)
      (p.historyAlone turns (host.interrupting write read) input)
      (p.runAlone turns host input) (p.runAlone turns (host.interrupting write read) input)
  /-- The interrupted run ends: it may run out of turns where it stops, but not with more. -/
  ends : (write = some 0 ∨ read = some 0) ∨
      (∃ o ∈ p.historyAlone turns host input, o.strikes write read = true) →
    ∀ more, turns < more →
      (p.runAlone more (host.interrupting write read) input).1.halt ≠ some .exhausted
  /-- The moment that strikes is the same one with more turns. -/
  lengthens : ∀ more, turns < more →
    p.historyAlone turns host input <+: p.historyAlone more host input

theorem runAlone_eq (turns : Nat) (host : Host) (p : Program) (input : Input) :
    p.runAlone turns host input =
      Report.ofAnswer ((p.script turns).run host ⟨.empty, 0, #[], .initial host input⟩) :=
  runFor_eq_script turns host p _

/-- Cancellation only cuts a run short. Up to the moment of the interruption the run is the one that
is never interrupted; after it nothing is written, read or stored but the line that was just read;
and the run stops at the next checkpoint or request for a line, or else ends as it would have. -/
theorem cutShort_of_interrupting {host : Host} (uninterrupted : host.Uninterrupted)
    (write read : Option Nat) (input : Input) (turns : Nat) (p : Program) :
    p.CutShort turns host write read input := by
  have start : Channels.initial host input = ⟨input, 0, 0, 0, false⟩ := by
    simp [Channels.initial, uninterrupted.write, uninterrupted.read]
  have beforeRun (h : write = some 0 ∨ read = some 0) :
      Report.Interrupted ⟨.empty, 0, #[], .initial host input⟩ (· = .empty)
        (p.historyAlone turns host input)
        (p.historyAlone turns (host.interrupting write read) input)
        (p.runAlone turns host input) (p.runAlone turns (host.interrupting write read) input) := by
    have startCut : Channels.initial (host.interrupting write read) input =
        ⟨input, 0, 0, 0, true⟩ := by
      simp [Channels.initial, Host.interrupting, h]
    have quiet : (p.script turns).Quiet True := quiet_scriptBlock turns p.body
    have cut := quiet.interrupted host write read ⟨.empty, 0, #[], ⟨input, 0, 0, 0, false⟩⟩
    rw [runAlone_eq, runAlone_eq, historyAlone, historyAlone, history, history, start, startCut]
    exact cut
  have inRun (h : ¬ (write = some 0 ∨ read = some 0)) :
      Report.CutShort write read (p.historyAlone turns host input)
        (p.historyAlone turns (host.interrupting write read) input)
        (p.runAlone turns host input)
        (p.runAlone turns (host.interrupting write read) input) := by
    have startCut : Channels.initial (host.interrupting write read) input =
        ⟨input, 0, 0, 0, false⟩ := by
      simpa [Channels.initial, Host.interrupting] using h
    have orderly : (p.script turns).Orderly := orderly_scriptBlock turns p.body
    rw [runAlone_eq, runAlone_eq, historyAlone, historyAlone, history, history, start, startCut]
    exact orderly.cutShort uninterrupted write read rfl
  refine ⟨beforeRun, inRun, ?_, ?_⟩
  · intro struck more longer
    have canceled : (p.runAlone turns (host.interrupting write read) input).2.canceled = true := by
      by_cases h : write = some 0 ∨ read = some 0
      · exact (beforeRun h).canceled
      · obtain ⟨o, ho, strikes⟩ := struck.resolve_left h
        cases inRun h with
        | untouched never =>
          rw [never o ho] at strikes
          cases strikes
        | struck _ _ _ _ after => exact after.canceled
    have lengthens : Script.Lengthens (p.script turns) (p.script more) :=
      lengthens_scriptBlock longer p.body
    rw [runAlone_eq] at canceled ⊢
    intro exhausted
    exact lengthens.answers canceled (Halt.ofAnswer_eq_some.1 exhausted)
  · intro more longer
    exact Script.Lengthens.history_prefix (lengthens_scriptBlock longer p.body) host _

/-- A loop that greets and asks for two lines. -/
def greetings : Program :=
  ⟨"p", [.repeatLoop none [.print none [.text none "hola"], .read none [⟨none, "x"⟩, ⟨none, "y"⟩]]
    (.boolean none false)]⟩

/-- Interrupted after the third line was read, the loop has stored that line, leaves the fourth and
stops where it asks for it. -/
theorem cutShort_greetings :
    greetings.CutShort 5 {} none (some 3) (.lines ["a", "b", "c", "d"]) ∧
      (greetings.runAlone 5 (Host.interrupting {} none (some 3))
        (.lines ["a", "b", "c", "d"])).2.input = .lines ["d"] ∧
      (greetings.runAlone 5 (Host.interrupting {} none (some 3))
        (.lines ["a", "b", "c", "d"])).1.store.get? "x" = some (.text "c") ∧
      (greetings.runAlone 5 (Host.interrupting {} none (some 3))
        (.lines ["a", "b", "c", "d"])).1.error? = some ⟨none, .readFailed "y" .canceled⟩ := by
  have uninterrupted : Host.Uninterrupted {} := ⟨rfl, rfl, rfl⟩
  refine ⟨cutShort_of_interrupting uninterrupted _ _ _ _ _, ?_, ?_, ?_⟩
  · decide +kernel
  · decide +kernel
  · decide +kernel

end Program

end Pseudocode

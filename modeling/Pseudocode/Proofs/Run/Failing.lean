import Pseudocode.Proofs.Run.Effects
import Pseudocode.Proofs.Run.Input
import Pseudocode.Proofs.Run.Walk

/-!
# What a failing statement leaves behind

A statement with an effect of its own computes everything that the effect needs before it has it,
and the effect is the last thing that can fail. So when such a statement fails, nothing has happened
but that random numbers were drawn. Only a reading has several effects; it fails at one of its
variables, and then the variables in front of it have their lines.

Over a whole run, a line that was written was computed right before by a statement that prints. So
the lines of a run, failed or not, are those of the statements that printed, in order.
-/

namespace Pseudocode

/-- The lines that were written. -/
def Machine.written (m : Machine) : List Text := m.log.toList.filterMap Event.line?

/-- Nothing has happened from one state to another that could be seen or remembered: nothing was
bound, stored, read or written. -/
structure Machine.Untouched (m m' : Machine) : Prop where
  store : m'.store = m.store
  log : m'.log = m.log
  input : m'.channels.input = m.channels.input
  reads : m'.channels.reads = m.channels.reads

theorem Machine.Untouched.written {m m' : Machine} (same : m.Untouched m') :
    m'.written = m.written := by
  rw [Machine.written, same.log, Machine.written]

theorem Machine.Untouched.trans {m m' m'' : Machine} (first : m.Untouched m')
    (second : m'.Untouched m'') : m.Untouched m'' where
  store := second.store.trans first.store
  log := second.log.trans first.log
  input := second.input.trans first.input
  reads := second.reads.trans first.reads

namespace Run

variable {α β : Type} {host : Host} {loc : Option Location} {m m' : Machine}

/-- Whatever the answer, nothing has happened. -/
def Harmless (x : Run α) : Prop := ∀ ⦃m r m'⦄, x m = (r, m') → m.Untouched m'

/-- Where it fails, nothing has happened. -/
def AllOrNothing (x : Run α) : Prop := ∀ ⦃m halt m'⦄, x m = (.error halt, m') → m.Untouched m'

theorem harmless_checkpoint : Harmless (checkpoint host loc) := by
  intro m r m' ran
  simp only [checkpoint] at ran
  split at ran
  · cases ran
    exact ⟨rfl, rfl, rfl, rfl⟩
  · split at ran
    · cases ran
      exact ⟨rfl, rfl, rfl, rfl⟩
    · cases ran
      exact ⟨rfl, rfl, rfl, rfl⟩

theorem channels_of_checkpoint {r : Except Halt Unit} (ran : checkpoint host loc m = (r, m')) :
    m'.channels = m.channels := by
  simp only [checkpoint] at ran
  split at ran
  · cases ran
    rfl
  · split at ran
    · cases ran
      rfl
    · cases ran
      rfl

theorem harmless_evaluating {x : Store → Eval α} : Harmless (evaluating x) := by
  intro m r m' ran
  simp only [evaluating] at ran
  split at ran
  · cases ran
    exact ⟨rfl, rfl, rfl, rfl⟩
  · cases ran
    exact ⟨rfl, rfl, rfl, rfl⟩

namespace AllOrNothing

theorem bind {x : Run α} {f : α → Run β} (first : Harmless x) (rest : ∀ a, AllOrNothing (f a)) :
    AllOrNothing (x >>= f) := by
  intro m halt m' ran
  rcases answer : x m with ⟨halt' | a, m₁⟩
  · rw [Action.bind_of_error answer] at ran
    cases ran
    exact first answer
  · rw [Action.bind_of_ok answer] at ran
    exact (first answer).trans (rest a ran)

theorem update (f : Machine → Machine) : AllOrNothing (Action.update f : Run Unit) := by
  intro m halt m' ran
  cases ran

theorem bindVariable {name : Text} {v : Value} : AllOrNothing (bindVariable loc name v) := by
  intro m halt m' ran
  simp only [Run.bindVariable] at ran
  split at ran
  · cases ran
  · cases ran
    exact ⟨rfl, rfl, rfl, rfl⟩

theorem writeLine {line : Text} : AllOrNothing (writeLine host loc line) := by
  intro m halt m' ran
  simp only [Run.writeLine] at ran
  split at ran
  · cases ran
    exact ⟨rfl, rfl, rfl, rfl⟩
  · cases ran

end AllOrNothing

end Run

/-- The statements with one effect of their own, which stands behind all that they compute. -/
def Stmt.IsSingle : Stmt → Prop
  | .assign _ _ _ | .dimension _ _ _ | .assignElement _ _ _ _ | .print _ _ => True
  | .read _ _ | .branch _ _ _ _ | .select _ _ _ _ | .whileLoop _ _ _ | .repeatLoop _ _ _
  | .forLoop _ _ _ _ _ _ => False

theorem Stmt.allOrNothing_exec {s : Stmt} (single : s.IsSingle) (host : Host) (turns : Nat) :
    Run.AllOrNothing (s.exec host turns) := by
  rw [Stmt.exec.eq_def]
  refine .bind Run.harmless_checkpoint fun _ => ?_
  cases s with
  | assign => exact .bind Run.harmless_evaluating fun _ => .bindVariable
  | dimension => exact .bind Run.harmless_evaluating fun _ => .update _
  | assignElement => exact .bind Run.harmless_evaluating fun _ => .update _
  | print => exact .bind Run.harmless_evaluating fun _ => .writeLine
  | _ => exact single.elim

section Reading

variable {host : Host} {loc : Option Location} {m m' : Machine}

/-- A store with variables bound to what lines are as values, in order. -/
def Store.fill (s : Store) (targets : List Target) (lines : List Text) : Store where
  bindings := (targets.zip lines).foldl (fun vs r => vs.insert r.1.name (.ofInput r.2)) s.bindings
  arrays := s.arrays

/-- From one state to another, lines were read into variables, and nothing else has happened. -/
structure Machine.Reads (m m' : Machine) (targets : List Target) (lines : List Text) : Prop where
  length : lines.length = targets.length
  input : m.channels.input.remaining = lines ++ m'.channels.input.remaining
  store : m'.store = m.store.fill targets lines
  written : m'.written = m.written
  writes : m'.channels.writes = m.channels.writes
  drawn : m'.channels.drawn = m.channels.drawn

theorem Machine.Untouched.reads_nil (same : m.Untouched m')
    (writes : m'.channels.writes = m.channels.writes)
    (drawn : m'.channels.drawn = m.channels.drawn) : m.Reads m' [] [] where
  length := rfl
  input := by rw [same.input, List.nil_append]
  store := same.store
  written := same.written
  writes := writes
  drawn := drawn

/-- What a read at the input does: it takes a line, or it takes none and fails at its place. -/
theorem Run.readLine_cases {name : Text} {r : Except Halt Text}
    (ran : readLine host loc name m = (r, m')) :
    m'.store = m.store ∧ m'.written = m.written ∧ m'.channels.writes = m.channels.writes ∧
      m'.channels.drawn = m.channels.drawn ∧
      ((∃ line, r = .ok line ∧
        m.channels.input.remaining = line :: m'.channels.input.remaining) ∨
      ∃ cause, r = .error (.failed ⟨loc, .readFailed name cause⟩) ∧
        m.channels.input.remaining = m'.channels.input.remaining) := by
  simp only [readLine] at ran
  rcases taken : m.channels.input.readUnless (interruption? host m) name with ⟨result, input⟩
  have left := Input.remaining_of_readUnless taken
  rw [taken] at ran
  -- What is seen of a read are no lines.
  have unseen {seen : Array Event} (quiet : seen.toList.filterMap Event.line? = []) :
      (m.log ++ seen).toList.filterMap Event.line? = m.written := by
    rw [Array.toList_append, List.filterMap_append, quiet, List.append_nil, Machine.written]
  have written : m'.written = m.written := by
    cases result with
    | _ =>
      cases ran
      refine unseen ?_
      cases m.channels.input.promptUnless (interruption? host m) name with
      | _ => rfl
  cases result with
  | ok line =>
    cases ran
    exact ⟨rfl, written, rfl, rfl, .inl ⟨line, rfl, left⟩⟩
  | error cause =>
    cases ran
    exact ⟨rfl, written, rfl, rfl, .inr ⟨cause, rfl, left⟩⟩

theorem Run.bindVariable_of_free {name : Text} (free : constant? name = none) (v : Value) :
    bindVariable loc name v m =
      (.ok (), { m with store.bindings := m.store.bindings.insert name v }) := by
  simp [bindVariable, Store.set?, free]

/-- A reading that fails does so at one of its variables. -/
theorem Run.readAll_eq_error {targets : List Target} {halt : Halt}
    (free : ∀ t ∈ targets, constant? t.name = none)
    (ran : readAll host targets m = (.error halt, m')) :
    ∃ filled t rest lines cause, targets = filled ++ t :: rest ∧
      halt = .failed ⟨t.loc, .readFailed t.name cause⟩ ∧ m.Reads m' filled lines := by
  induction targets generalizing m with
  | nil => cases ran
  | cons t targets ih =>
    obtain ⟨own, others⟩ := List.forall_mem_cons.1 free
    rw [readAll] at ran
    rcases taken : readLine host t.loc t.name m with ⟨result, m₁⟩
    obtain ⟨store, written, writes, drawn, ⟨line, rfl, left⟩ | ⟨cause, rfl, left⟩⟩ :=
      readLine_cases taken
    · have bound : readInto host t m = _ :=
        (Action.bind_of_ok taken).trans (bindVariable_of_free own (.ofInput line))
      rw [Action.bind_of_ok bound] at ran
      obtain ⟨filled, t', rest, lines, cause, rfl, rfl, reads⟩ := ih others ran
      refine ⟨t :: filled, t', rest, line :: lines, cause, rfl, rfl, ?_, ?_, ?_, ?_, ?_, ?_⟩
      · simp [reads.length]
      · rw [left, List.cons_append, ← reads.input]
      · rw [reads.store, store]
        rfl
      · exact reads.written.trans written
      · exact reads.writes.trans writes
      · exact reads.drawn.trans drawn
    · have stopped : readInto host t m = _ := Action.bind_of_error taken
      rw [Action.bind_of_error stopped] at ran
      cases ran
      exact ⟨[], t, targets, [], cause, rfl, rfl, rfl, left, store, written, writes, drawn⟩

/-- A reading fails before its first variable, when the run is stopped, or at one of its
variables. -/
theorem Stmt.exec_read_eq_error {turns : Nat} {targets : List Target} {halt : Halt}
    (free : ∀ t ∈ targets, constant? t.name = none)
    (ran : (Stmt.read loc targets).exec host turns m = (.error halt, m')) :
    ∃ filled rest lines, targets = filled ++ rest ∧ m.Reads m' filled lines ∧
      ((filled = [] ∧ Run.checkpoint host loc m = (.error halt, m')) ∨
        ∃ t cause, rest.head? = some t ∧ halt = .failed ⟨t.loc, .readFailed t.name cause⟩) := by
  rw [Stmt.exec] at ran
  rcases checked : Run.checkpoint host loc m with ⟨halt' | _, m₁⟩
  · rw [Stmt.loc, Action.bind_of_error checked] at ran
    cases ran
    have channels := Run.channels_of_checkpoint checked
    have nothing := (Run.harmless_checkpoint checked).reads_nil
      (congrArg Channels.writes channels) (congrArg Channels.drawn channels)
    exact ⟨[], targets, [], rfl, nothing, .inl ⟨rfl, rfl⟩⟩
  · rw [Stmt.loc, Action.bind_of_ok checked] at ran
    cases Run.checkpoint_eq_ok checked
    obtain ⟨filled, t, rest, lines, cause, split, rfl, reads⟩ := Run.readAll_eq_error free ran
    refine ⟨filled, t :: rest, lines, split, ?_, .inr ⟨t, cause, rfl, rfl⟩⟩
    exact ⟨reads.length, reads.input, reads.store, reads.written, reads.writes, reads.drawn⟩

end Reading

namespace Effect

variable {α : Type} {host : Host} {m m' : Machine} {r : Except Halt α}

/-- The line that an effect writes. -/
def line? {α : Type} : Effect α → Option Text
  | writeLine _ line => some line
  | _ => none

end Effect

namespace Occurrence

/-- The line that was written, if the effect did not fail. -/
def written? (o : Occurrence) : Option Text :=
  match o.answer with
  | .ok _ => o.effect.line?
  | .error _ => none

/-- The lines that were written are those of the statements that printed, in order: each was
computed and then written by a statement that is fit. -/
inductive Printed (fit : Stmt → Prop) : List Occurrence → List Text → Prop where
  | nil : Printed fit [] []
  | other {o : Occurrence} {later : List Occurrence} {lines : List Text}
      (unwritten : o.written? = none) (rest : Printed fit later lines) :
      Printed fit (o :: later) lines
  | print {loc : Option Location} {exprs : List Expr} {line : Text} {computed written : Machine}
      {later : List Occurrence} {lines : List Text} (own : fit (.print loc exprs))
      (rest : Printed fit later lines) :
      Printed fit (⟨.printedLine exprs, .ok line, computed⟩ ::
        ⟨.writeLine loc line, .ok (), written⟩ :: later) (line :: lines)

namespace Printed

variable {fit : Stmt → Prop} {first later : List Occurrence} {lines more : List Text}

theorem append (h : Printed fit first lines) (rest : Printed fit later more) :
    Printed fit (first ++ later) (lines ++ more) := by
  induction h with
  | nil => exact rest
  | other unwritten _ ih => exact .other unwritten ih
  | print own _ ih => exact .print own ih

/-- What failed in the end has written nothing. -/
theorem of_snoc {o : Occurrence} (h : Printed fit (first ++ [o]) lines)
    (unwritten : o.written? = none) : Printed fit first lines := by
  generalize split : first ++ [o] = all at h
  induction h generalizing first with
  | nil => exact absurd split (by simp)
  | other plain rest ih =>
    rcases first with _ | ⟨head, first⟩
    · cases split
      exact rest
    · rw [List.cons_append, List.cons.injEq] at split
      obtain ⟨rfl, split⟩ := split
      exact .other plain (ih split)
  | print own rest ih =>
    rcases first with _ | ⟨head, _ | ⟨second, first⟩⟩
    · cases split
    · cases split
      cases unwritten
    · rw [List.cons_append, List.cons_append, List.cons.injEq, List.cons.injEq] at split
      obtain ⟨rfl, rfl, split⟩ := split
      exact .print own (ih split)

end Printed

end Occurrence

/-- An effect writes its line if it succeeds, and nothing else is written. -/
theorem Effect.written_of_perform {α : Type} {host : Host} {m m' : Machine} {effect : Effect α}
    {r : Except Halt α} (ran : effect.perform host m = (r, m')) :
    m'.written = m.written ++ (Occurrence.written? ⟨effect, r, m'⟩).toList := by
  have unwritten (none : effect.line? = none) (same : m'.written = m.written) :
      m'.written = m.written ++ (Occurrence.written? ⟨effect, r, m'⟩).toList := by
    cases r with
    | _ => simp [Occurrence.written?, none, same]
  cases effect with
  | checkpoint => exact unwritten rfl (Run.harmless_checkpoint ran).written
  | value e =>
    have kept := Run.harmless_evaluating (x := fun store => e.eval host.draws store) ran
    exact unwritten rfl kept.written
  | declaredSize loc name size =>
    have kept := Run.harmless_evaluating (x := Run.declaredSize host loc name size) ran
    exact unwritten rfl kept.written
  | elementTarget loc name index e =>
    have kept := Run.harmless_evaluating (x := Run.elementTarget host loc name index e) ran
    exact unwritten rfl kept.written
  | printedLine exprs =>
    exact unwritten rfl (Run.harmless_evaluating (x := Run.printedLine host exprs) ran).written
  | bindVariable loc name v =>
    simp only [perform, Run.bindVariable] at ran
    split at ran
    · cases ran
      exact unwritten rfl rfl
    · cases ran
      exact unwritten rfl rfl
  | bindArray | storeElement =>
    cases ran
    exact unwritten rfl rfl
  | readLine => exact unwritten rfl (Run.readLine_cases ran).2.1
  | writeLine loc line =>
    cases r with
    | ok =>
      have log := (Run.writeLine_eq_ok ran).2
      simp [Machine.written, log, Occurrence.written?, line?, Event.line?]
    | error halt =>
      have same := (Run.AllOrNothing.writeLine ran).written
      simp [same, Occurrence.written?]

namespace Script

variable {α β : Type} {fit : Stmt → Prop}

/-- On every walk the lines that are written are those of the statements that print. -/
def Prints (fit : Stmt → Prop) (x : Script α) : Prop :=
  ∀ host m, ∃ lines, Occurrence.Printed fit (x.history host m) lines ∧
    (x.run host m).2.written = m.written ++ lines

theorem prints_pure (a : α) : Prints fit (pure a : Script α) :=
  fun _ m => ⟨[], .nil, (List.append_nil m.written).symm⟩

theorem prints_exhausted : Prints fit (exhausted : Script α) :=
  fun _ m => ⟨[], .nil, (List.append_nil m.written).symm⟩

theorem prints_act {effect : Effect β} {next : β → Script α} (unwritten : effect.line? = none)
    (rest : ∀ b, Prints fit (next b)) : Prints fit (act effect next) := by
  intro host m
  rcases answer : effect.perform host m with ⟨halt | b, m'⟩
  · have written := Effect.written_of_perform answer
    rw [history_act_of_error answer, run_act_of_error answer]
    exact ⟨[], .other rfl .nil, written⟩
  · obtain ⟨lines, printed, written⟩ := rest b host m'
    have same := Effect.written_of_perform answer
    rw [history_act_of_ok answer, run_act_of_ok answer]
    have plain : Occurrence.written? ⟨effect, .ok b, m'⟩ = none := unwritten
    rw [plain, Option.toList_none, List.append_nil] at same
    exact ⟨lines, .other plain printed, by rw [written, same]⟩

theorem prints_perform {effect : Effect α} (unwritten : effect.line? = none) :
    Prints fit (perform effect) :=
  prints_act unwritten prints_pure

theorem prints_bind {x : Script α} {f : α → Script β} (first : Prints fit x)
    (rest : ∀ a, Prints fit (f a)) : Prints fit (x >>= f) := by
  intro host m
  obtain ⟨lines, printed, written⟩ := first host m
  rcases ran : x.run host m with ⟨halt | a, m'⟩
  · rw [ran] at written
    rw [history_bind_of_error ran, run_bind, Action.bind_of_error ran]
    exact ⟨lines, printed, written⟩
  · obtain ⟨more, later, written'⟩ := rest a host m'
    rw [ran] at written
    rw [history_bind_of_ok ran, run_bind, Action.bind_of_ok ran]
    exact ⟨lines ++ more, printed.append later, by rw [written', written, List.append_assoc]⟩

theorem prints_print {loc : Option Location} {exprs : List Expr} (own : fit (.print loc exprs)) :
    Prints fit (act (.printedLine exprs) fun line => perform (.writeLine loc line)) := by
  intro host m
  rcases computed : (Effect.printedLine exprs).perform host m with ⟨halt | line, m₁⟩
  · have written := Effect.written_of_perform computed
    rw [history_act_of_error computed, run_act_of_error computed]
    exact ⟨[], .other rfl .nil, written⟩
  · have same : m₁.written = m.written ++ [] := Effect.written_of_perform computed
    rw [history_act_of_ok computed, run_act_of_ok computed]
    rcases wrote : (Effect.writeLine loc line).perform host m₁ with ⟨halt | _, m₂⟩
    · have written : m₂.written = m₁.written ++ [] := Effect.written_of_perform wrote
      rw [perform, history_act_of_error wrote, run_act_of_error wrote]
      exact ⟨[], .other rfl (.other rfl .nil), by rw [written, List.append_nil, same]⟩
    · have written : m₂.written = m₁.written ++ [line] := Effect.written_of_perform wrote
      rw [List.append_nil] at same
      rw [perform, history_act_of_ok wrote, run_act_of_ok wrote]
      exact ⟨[line], .print own .nil, written.trans (congrArg (· ++ [line]) same)⟩

/-- In the script of a program it is its statements that print that write. -/
theorem closed_prints (fit : Stmt → Prop) : Closed fit (Prints fit) where
  pure := prints_pure
  exhausted := prints_exhausted
  bind := prints_bind
  checkpoint _ := prints_perform rfl
  value _ _ := prints_perform rfl
  assign _ := prints_act rfl fun _ => prints_perform rfl
  dimension _ := prints_act rfl fun _ => prints_perform rfl
  assignElement _ := prints_act rfl fun _ => prints_perform rfl
  print := prints_print
  read _ _ := prints_act rfl fun _ => prints_perform rfl
  count _ _ := prints_perform rfl

end Script

namespace Program

/-- **Failing statements leave nothing half done.** A statement with one effect of its own leaves
the variables, the arrays, what was written and the input as they were. A reading into variables
leaves those in front of the one that it fails at with as many lines of the input, in order, and
nothing else changed. And the lines of a run that failed are those of the statements that printed
before the effect that failed, which is its last. -/
theorem leaves_of_failure (host : Host) (turns : Nat) :
    (∀ (s : Stmt) m halt m', s.IsSingle → s.exec host turns m = (.error halt, m') → m.Untouched m') ∧
    (∀ loc targets m halt m', (∀ t ∈ targets, constant? t.name = none) →
      (Stmt.read loc targets).exec host turns m = (.error halt, m') →
      ∃ filled rest lines, targets = filled ++ rest ∧ m.Reads m' filled lines ∧
        ((filled = [] ∧ Run.checkpoint host loc m = (.error halt, m')) ∨
          ∃ t cause, rest.head? = some t ∧
            halt = .failed ⟨t.loc, .readFailed t.name cause⟩)) ∧
    ∀ (p : Program) channels e, (p.runFor turns host channels).1.error? = some e →
      ∃ before o, p.history turns host channels = before ++ [o] ∧
        o.answer = .error (.failed e) ∧
        Occurrence.Printed (· ∈ p.statements) before (p.runFor turns host channels).1.output := by
  refine ⟨fun s m halt m' single ran => Stmt.allOrNothing_exec single host turns ran,
    fun loc targets m halt m' free ran => Stmt.exec_read_eq_error free ran, ?_⟩
  intro p channels e failed
  obtain ⟨before, o, split, answer⟩ := exists_last_of_error? failed
  obtain ⟨lines, printed, written⟩ :=
    (Script.closed_prints (· ∈ p.statements)).block turns p.body (fun _ mem => mem) host
      ⟨.empty, 0, #[], channels⟩
  obtain ⟨m, reached, -, log, -⟩ := @reaches_report turns host p channels
  have output : (p.runFor turns host channels).1.output = lines := by
    have ended : m = ((p.script turns).run host ⟨.empty, 0, #[], channels⟩).2 :=
      reached.leads.trans (Script.run_snd_eq _ _).symm
    rw [Report.output, log, ← List.nil_append lines, ended]
    exact written
  have all : Occurrence.Printed _ (p.history turns host channels) lines := printed
  rw [split] at all
  refine ⟨before, o, split, answer, output ▸ all.of_snoc ?_⟩
  rw [Occurrence.written?, answer]

/-- A host whose second line cannot be written. -/
def narrow : Host := { failWrite := some 2 }

/-- A program that writes two lines. -/
def twice : Program := ⟨"p", [.print none [.text none "x"], .print none [.text none "y"]]⟩

/-- A second line that is not written, a second variable without a line, and a run whose second line
is not written. -/
theorem leaves_of_failure_narrow :
    (∃ halt m', (Stmt.print none [.text none "y"]).exec narrow 0
        ⟨.empty, 0, #[.line "x"], { input := .lines [], writes := 1 }⟩ = (.error halt, m') ∧
      m'.written = [Text.ofString "x"]) ∧
    (∃ halt m' filled rest lines, (Stmt.read none [⟨none, "a"⟩, ⟨none, "b"⟩]).exec narrow 0
        ⟨.empty, 0, #[], { input := .lines ["1"] }⟩ = (.error halt, m') ∧
      [⟨none, "a"⟩, ⟨none, "b"⟩] = filled ++ rest ∧
      Machine.Reads ⟨.empty, 0, #[], { input := .lines ["1"] }⟩ m' filled lines ∧
      lines ++ m'.channels.input.remaining = [Text.ofString "1"]) ∧
    ∃ before o e, twice.history 0 narrow { input := .lines [] } = before ++ [o] ∧
      o.answer = .error (.failed e) ∧
      Occurrence.Printed (· ∈ twice.statements) before ["x"] := by
  obtain ⟨single, reading, whole⟩ := leaves_of_failure narrow 0
  refine ⟨?_, ?_, ?_⟩
  · obtain ⟨halt, m', ran⟩ : ∃ halt m', (Stmt.print none [.text none "y"]).exec narrow 0
        ⟨.empty, 0, #[.line "x"], { input := .lines [], writes := 1 }⟩ = (.error halt, m') :=
      ⟨_, _, rfl⟩
    exact ⟨halt, m', ran, (single (.print none [.text none "y"]) _ _ _ trivial ran).written⟩
  · obtain ⟨halt, m', ran⟩ : ∃ halt m', (Stmt.read none [⟨none, "a"⟩, ⟨none, "b"⟩]).exec narrow 0
        ⟨.empty, 0, #[], { input := .lines ["1"] }⟩ = (.error halt, m') := ⟨_, _, rfl⟩
    obtain ⟨filled, rest, lines, split, reads, -⟩ := reading _ _ _ _ _ (by decide) ran
    exact ⟨halt, m', filled, rest, lines, ran, split, reads, reads.input.symm⟩
  · obtain ⟨e, failed⟩ : ∃ e, (twice.runFor 0 narrow { input := .lines [] }).1.error? = some e :=
      ⟨_, rfl⟩
    obtain ⟨before, o, split, answer, printed⟩ := whole _ _ _ failed
    exact ⟨before, o, e, split, answer, printed⟩

end Program

end Pseudocode

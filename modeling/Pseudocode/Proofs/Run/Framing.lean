import Pseudocode.Proofs.Run.Effects
import Pseudocode.Proofs.Run.Script
import Pseudocode.Proofs.Text.Lines

/-!
# What a run leaves unread

A stream is read line by line, and a line ends at its newline. So a run that comes to its end on a
stream of whole lines never looks past them: whatever follows in the stream, it has the same run and
leaves what follows where it is.
-/

namespace Pseudocode

/-- Bytes that are whole lines, each with its newline. -/
def AreLines (bytes : List UInt8) : Prop := bytes = [] ∨ bytes.getLast? = some 10

instance (bytes : List UInt8) : Decidable (AreLines bytes) :=
  inferInstanceAs (Decidable (_ ∨ _))

section Lines

variable {bytes line after : List UInt8}

theorem splitLine?_append (h : splitLine? bytes = some (line, after)) (rest : List UInt8) :
    splitLine? (bytes ++ rest) = some (line, after ++ rest) := by
  induction bytes generalizing line with
  | nil => cases h
  | cons b bytes ih =>
    simp only [splitLine?, List.cons_append] at h ⊢
    split at h
    · next newline =>
      cases h
      rw [if_pos newline]
    · next other =>
      obtain ⟨⟨line', after'⟩, split, same⟩ := Option.map_eq_some_iff.1 h
      cases same
      rw [if_neg other, ih split, Option.map_some]

/-- Where there are whole lines and at least one byte, there is a first line, and whole lines follow
it. -/
theorem AreLines.exists_splitLine? (lines : AreLines bytes) (nonempty : bytes ≠ []) :
    ∃ line after, splitLine? bytes = some (line, after) ∧ AreLines after := by
  have ends : bytes.getLast? = some 10 := lines.resolve_left nonempty
  clear lines nonempty
  induction bytes with
  | nil => cases ends
  | cons b rest ih =>
    by_cases newline : b = 10
    · refine ⟨[], rest, by rw [splitLine?, if_pos newline], ?_⟩
      cases rest with
      | nil => exact .inl rfl
      | cons c rest => exact .inr (by rwa [List.getLast?_cons_cons] at ends)
    · cases rest with
      | nil =>
        rw [List.getLast?_singleton] at ends
        exact absurd (Option.some.inj ends) newline
      | cons c rest =>
        rw [List.getLast?_cons_cons] at ends
        obtain ⟨line, after, split, lines⟩ := ih ends
        exact ⟨b :: line, after, by rw [splitLine?, if_neg newline, split, Option.map_some], lines⟩

end Lines

namespace Input

/-- The input with more bytes at the end of its stream. -/
def more (rest : List UInt8) : Input → Input
  | stream bytes broken => stream (bytes ++ rest) broken
  | lines ls => lines ls
  | editor bytes broken => editor bytes broken

/-- A stream of whole lines that ends well. -/
def IsLines : Input → Prop
  | stream bytes false => AreLines bytes
  | _ => False

end Input

/-- Channels with more bytes at the end of their input. -/
def Channels.more (rest : List UInt8) (c : Channels) : Channels :=
  { c with input := c.input.more rest }

/-- A state with more bytes at the end of its input. -/
def Machine.more (rest : List UInt8) (m : Machine) : Machine :=
  { m with channels := m.channels.more rest }

/-- A state that has whole lines to read, for which no prompt has been shown. -/
structure Machine.OnLines (m : Machine) : Prop where
  input : m.channels.input.IsLines
  unprompted : ∀ t, Event.prompt t ∉ m.log

/-- The run goes on alike when more bytes follow its lines. -/
def Run.Frames {α : Type} (x : Run α) : Prop :=
  ∀ ⦃m a m'⦄, x m = (.ok a, m') → m.OnLines →
    m'.OnLines ∧ ∀ rest, x (m.more rest) = (.ok a, m'.more rest)

namespace Run.Frames

variable {α β : Type} {host : Host} {loc : Option Location}

theorem pure (a : α) : Frames (pure a) := by
  intro m b m' h lines
  cases h
  exact ⟨lines, fun _ => rfl⟩

theorem bind {x : Run α} {f : α → Run β} (first : Frames x) (rest : ∀ a, Frames (f a)) :
    Frames (x >>= f) := by
  intro m b m' h lines
  obtain ⟨a, middle, ran, later⟩ := Action.bind_eq_ok.1 h
  obtain ⟨lines, more⟩ := first ran lines
  obtain ⟨lines, more'⟩ := rest a later lines
  exact ⟨lines, fun bytes => by rw [Action.bind_of_ok (more bytes), more' bytes]⟩

theorem checkpoint : Frames (checkpoint host loc) := by
  intro m a m' h lines
  have same (rest : List UInt8) : interruption? host (m.more rest) = interruption? host m := rfl
  simp only [Run.checkpoint] at h
  split at h
  · cases h
  · next goes =>
    split at h
    · cases h
    · next within =>
      cases h
      refine ⟨⟨lines.input, lines.unprompted⟩, fun rest => ?_⟩
      simp only [Run.checkpoint, same, goes]
      exact if_neg within

theorem evaluating {x : Store → Eval α} : Frames (evaluating x) := by
  intro m a m' h lines
  obtain ⟨drawn, evaluated, rfl⟩ := evaluating_eq_ok h
  refine ⟨⟨lines.input, lines.unprompted⟩, fun rest => ?_⟩
  have same : x (m.more rest).store (m.more rest).channels.drawn = (.ok a, drawn) := evaluated
  simp only [Run.evaluating, same]
  rfl

theorem bindVariable {name : Text} {v : Value} : Frames (bindVariable loc name v) := by
  intro m a m' h lines
  simp only [Run.bindVariable] at h
  split at h
  · next store bound =>
    cases h
    refine ⟨⟨lines.input, lines.unprompted⟩, fun rest => ?_⟩
    have same : (m.more rest).store.set? name v = some store := bound
    simp only [Run.bindVariable, same]
    rfl
  · cases h

theorem update {f : Machine → Machine} (input : ∀ m, (f m).channels.input = m.channels.input)
    (log : ∀ m, (f m).log = m.log) (same : ∀ m rest, f (Machine.more rest m) = (f m).more rest) :
    Frames (Action.update f) := by
  intro m a m' h lines
  cases h
  refine ⟨⟨?_, ?_⟩, fun rest => by rw [Action.update_apply, same]⟩
  · rw [input]
    exact lines.input
  · rw [log]
    exact lines.unprompted

theorem writeLine {line : Text} : Frames (writeLine host loc line) := by
  intro m a m' h lines
  simp only [Run.writeLine] at h
  split at h
  · cases h
  · next works =>
    cases h
    refine ⟨⟨lines.input, fun t => ?_⟩, fun rest => if_neg works⟩
    simpa using lines.unprompted t

/-- Reading a line of a stream. -/
theorem readLine_of_line {m : Machine} {bytes line after : List UInt8}
    (goes : interruption? host m = none) (input : m.channels.input = .stream bytes false)
    (split : splitLine? bytes = some (line, after)) (name : Text) :
    Run.readLine host loc name m = (.ok ⟨trimLineEnd line⟩,
      { m with
        log := m.log ++ #[.request name]
        channels := { m.channels with
          input := .stream after false
          reads := m.channels.reads + 1
          canceled :=
            m.channels.canceled || host.cancelRead == some (m.channels.reads + 1) } }) := by
  simp only [Run.readLine, goes, input, Input.readUnless, Input.readLine, Input.readStream, split,
    Input.promptUnless]

/-- A line that is read is one of the whole lines. -/
theorem readLine {name : Text} : Frames (readLine host loc name) := by
  intro m line m' h lines
  cases goes : interruption? host m with
  | some cause =>
    simp only [Run.readLine, goes, Input.readUnless] at h
    cases h
  | none =>
    have whole := lines.input
    cases input : m.channels.input with
    | lines | editor =>
      rw [input] at whole
      exact whole.elim
    | stream bytes broken =>
      rw [input] at whole
      obtain rfl : broken = false := by
        cases broken with
        | false => rfl
        | true => exact whole.elim
      by_cases empty : bytes = []
      · subst empty
        simp only [Run.readLine, goes, input, Input.readUnless, Input.readLine,
          Input.readStream] at h
        cases h
      · obtain ⟨first, after, split, rest⟩ := AreLines.exists_splitLine? whole empty
        rw [readLine_of_line goes input split] at h
        cases h
        refine ⟨⟨rest, fun t => by simpa using lines.unprompted t⟩, fun more => ?_⟩
        have input' : (m.more more).channels.input = .stream (bytes ++ more) false := by
          simp only [Machine.more, Channels.more, input, Input.more]
        rw [readLine_of_line (m := m.more more) goes input' (splitLine?_append split more)]
        rfl

end Run.Frames

namespace Effect

theorem frames_perform (host : Host) {α : Type} (effect : Effect α) :
    Run.Frames (effect.perform host) := by
  cases effect with
  | checkpoint loc => exact .checkpoint
  | bindVariable loc name v => exact .bindVariable
  | value e => exact Run.Frames.evaluating (x := fun store => e.eval host.draws store)
  | declaredSize | elementTarget | printedLine => exact .evaluating
  | bindArray name size => exact .update (fun _ => rfl) (fun _ => rfl) fun _ _ => rfl
  | storeElement id slot v => exact .update (fun _ => rfl) (fun _ => rfl) fun _ _ => rfl
  | writeLine loc line => exact .writeLine
  | readLine loc name => exact .readLine

end Effect

theorem Script.frames_run (host : Host) {α : Type} (x : Script α) : Run.Frames (x.run host) := by
  induction x with
  | done a => exact .pure a
  | exhausted =>
    intro m a m' h
    cases h
  | act effect next ih => exact (effect.frames_perform host).bind ih

namespace Program

variable {turns : Nat} {host : Host} {p : Program} {channels : Channels}

/-- A program that comes to its end on whole lines has the same run when more bytes follow them, and
leaves these bytes. Nobody is prompted for a line. -/
theorem frames_runFor (lines : channels.input.IsLines)
    (ended : (p.runFor turns host channels).1.halt = none) :
    (∀ t, Event.prompt t ∉ (p.runFor turns host channels).1.log) ∧
    ∀ rest, p.runFor turns host (channels.more rest) =
      ((p.runFor turns host channels).1, (p.runFor turns host channels).2.more rest) := by
  simp only [runFor_eq_script] at ended ⊢
  rcases ran : (p.script turns).run host ⟨.empty, 0, #[], channels⟩ with ⟨halt | _, m⟩
  · rw [ran] at ended
    cases ended
  · obtain ⟨⟨_, unprompted⟩, more⟩ :=
      Script.frames_run host _ ran ⟨lines, fun _ => Array.not_mem_empty _⟩
    refine ⟨unprompted, fun rest => ?_⟩
    have again : (p.script turns).run host ⟨.empty, 0, #[], channels.more rest⟩ =
      (.ok (), m.more rest) := more rest
    rw [again]
    rfl

end Program

end Pseudocode

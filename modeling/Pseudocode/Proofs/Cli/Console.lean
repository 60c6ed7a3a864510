import Pseudocode.Proofs.Program.Refusal
import Pseudocode.Proofs.Run.Framing
import Pseudocode.Proofs.Run.Places

/-!
# Programs one after another

The console and the programs it runs take turns on one stream: the console reads lines until they
make a program, and the program reads its own lines from there on. Where the stream is made of
programs, each followed by the lines that it reads, every line goes to where it belongs. A part of a
program is never a program and never refused, because the rest completes it, so the console stops
exactly at its last line; and a program that comes to its end on its lines leaves what follows them.

Blank lines in front of a program are dropped. The program that is run then stands further up, but
its run is the same.
-/

namespace Pseudocode

namespace Text

/-- The first line of a text that ends in a line break. -/
theorem EndsLine.exists_line {t : Text} (ends : t.EndsLine) :
    ∃ (line : List UInt8) (after : Text), t = (⟨line⟩ ++ "\n") ++ after ∧
      splitLine? t.bytes = some (line, after.bytes) := by
  have nonempty : t.bytes ≠ [] := by
    intro none
    rw [EndsLine, none] at ends
    cases ends
  obtain ⟨line, after, split, _⟩ := AreLines.exists_splitLine? (.inr ends) nonempty
  refine ⟨line, ⟨after⟩, Text.ext ?_, split⟩
  rw [(splitLine?_eq_some split).1]
  exact (List.append_assoc line [10] after).symm

end Text

theorem concat_shown {log : List Event} (unprompted : ∀ t, Event.prompt t ∉ log) :
    Text.concat (log.map Event.shown) = writtenText (log.filterMap Event.line?) := by
  induction log with
  | nil => rfl
  | cons event log ih =>
    have rest := congrArg Text.bytes (ih fun t shown => unprompted t (List.mem_cons_of_mem _ shown))
    ext1
    cases event with
    | line t =>
      simp only [Text.concat, writtenText] at rest ⊢
      simp [Event.shown, Event.line?, rest]
    | request name => exact rest
    | prompt t => exact absurd List.mem_cons_self (unprompted t)

namespace Cli

namespace Screen

/-- Screens one after another. -/
def all (screens : List Screen) : Screen :=
  ⟨Text.concat (screens.map out), Text.concat (screens.map err)⟩

@[simp] theorem out_append (a b : Screen) : (a ++ b).out = a.out ++ b.out := rfl

@[simp] theorem err_append (a b : Screen) : (a ++ b).err = a.err ++ b.err := rfl

@[simp] theorem append_empty (a : Screen) : a ++ {} = a := by
  obtain ⟨out, err⟩ := a
  exact congr (congrArg mk out.append_empty) err.append_empty

@[simp] theorem all_cons (a : Screen) (rest : List Screen) : all (a :: rest) = a ++ all rest := rfl

theorem all_append (as bs : List Screen) : all (as ++ bs) = all as ++ all bs := by
  simp only [all, Text.concat, List.map_append, List.flatMap_append]
  rfl

end Screen

/-- What the console makes of the source that it has gathered. -/
inductive Verdict where
  | blank
  | kept
  | refused (e : CompileError)
  | ran (p : Program) (input : Input) (report : Report) (left : Input)

namespace Session

/-- The host of the console's programs. -/
def host (s : Session) : Host := (Limits.ofSettings s.settings).host s.draws

/-- A program run from the start on an input. -/
def runFresh (s : Session) (p : Program) (input : Input) : Report × Channels :=
  p.run s.host (.initial s.host input)

/-- What the console makes of a source. `more` tells that further lines may follow. -/
def verdict (s : Session) (src : Text) (more : Bool) (input : Input) : Verdict :=
  if src.isBlank then .blank
  else match Program.ofSource src with
    | .error e => if e.isIncomplete && more then .kept else .refused e
    | .ok p =>
      let (report, channels) := s.runFresh p input
      .ran p input report channels.input

/-- What is seen and what is left when something has come of a source. -/
def answer (s : Session) (src : Text) (input : Input) : Verdict → Fed
  | .blank => ⟨{}, Text.empty, input⟩
  | .kept => ⟨{}, src, input⟩
  | .refused e => ⟨s.report (.diagnosed none e.diagnostic) src, Text.empty, input⟩
  | .ran p input _ left =>
    let ran := s.run (.ofSettings s.settings) p input
    ⟨match ran.2.2 with
      | none => ran.1
      | some f => ran.1 ++ s.report f src, Text.empty, left⟩

theorem left_run (s : Session) (p : Program) (input : Input) :
    (s.run (.ofSettings s.settings) p input).2.1 = (s.runFresh p input).2.input := by
  simp only [run]
  split
  · rfl
  · rfl

theorem feed_eq_answer (s : Session) (buffer line : Text) (more : Bool) (input : Input) :
    s.feed buffer line more input =
      s.answer (buffer ++ line) input (s.verdict (buffer ++ line) more input) := by
  simp only [feed, verdict]
  cases (buffer ++ line).isBlank with
  | true => rfl
  | false =>
    cases Program.ofSource (buffer ++ line) with
    | error e =>
      cases kept : e.isIncomplete && more with
      | true => simp [kept, answer]
      | false => simp [kept, answer]
    | ok p =>
      simp only [Bool.false_eq_true, if_false, answer, ← left_run]
      cases (s.run (.ofSettings s.settings) p input).2.2 with
      | none => rfl
      | some f => rfl

end Session

/-- A line that the console takes as source, what it makes of the source then, and what is seen. -/
structure Turn where
  line : Text
  verdict : Verdict
  screen : Screen

namespace Session

/-- The turns of the console on a stream, for at most `fuel` lines. -/
def turns (s : Session) : (fuel : Nat) → (buffer : Text) → List UInt8 → List Turn
  | 0, _, _ => []
  | fuel + 1, buffer, rest =>
    match splitLine? rest with
    | some (line, after) =>
      let src := buffer ++ (⟨line⟩ ++ "\n")
      let verdict := s.verdict src true (.stream after false)
      let fed := s.answer src (.stream after false) verdict
      ⟨⟨line⟩ ++ "\n", verdict, fed.screen⟩ :: turns s fuel fed.buffer fed.input.rest
    | none =>
      let src := buffer ++ ⟨rest⟩
      let verdict := s.verdict src false (.stream [] false)
      [⟨⟨rest⟩, verdict, (s.answer src (.stream [] false) verdict).screen⟩]

/-- The turns of the console on a stream. -/
def consoleTurns (s : Session) (stream : List UInt8) : List Turn :=
  s.turns (stream.length + 1) Text.empty stream

/-- What is seen of the console is what is seen of its turns. -/
theorem bufferedLoop_eq_turns (s : Session) (fuel : Nat) (buffer : Text) (rest : List UInt8) :
    s.bufferedLoop false fuel buffer rest =
      (.all ((s.turns fuel buffer rest).map Turn.screen), .ok) := by
  induction fuel generalizing buffer rest with
  | zero => rfl
  | succ fuel ih =>
    simp only [bufferedLoop, turns, feed_eq_answer]
    cases splitLine? rest with
    | some split =>
      obtain ⟨line, after⟩ := split
      simp only [ih, List.map_cons, Screen.all_cons]
    | none => exact congrArg (·, Status.ok) (Screen.append_empty _).symm

@[simp] theorem out_log (s : Session) (line : LogLine) : (s.log line).out = Text.empty := by
  rw [log]
  split
  · rfl
  · rfl

theorem log_of_quiet {s : Session} (quiet : s.verbose = false)
    (level : s.settings.log.level ≠ "debug") (line : LogLine) : s.log line = {} := by
  have unwanted : (s.settings.log.level == ("debug" : Text)) = false := beq_eq_false_iff_ne.2 level
  simp [log, quiet, unwanted]

/-- What is seen of a run that comes to its end. -/
def seen (s : Session) (p : Program) (report : Report) : Screen :=
  let named (message : Text) (values : List (Text × LogValue)) : Screen :=
    s.log ⟨message, ("run_id", s.stamps.runId) :: ("program", .text p.name) :: values⟩
  named "run started" [("statements", .integer p.body.length)] ++
    .print (Text.concat (report.log.toList.map Event.shown)) ++
    named "run finished" [("steps", .integer report.steps), ("elapsed", s.stamps.elapsed)]

theorem run_of_ended (s : Session) {p : Program} {input : Input}
    (ended : (s.runFresh p input).1.halt = none) :
    s.run (.ofSettings s.settings) p input =
      (s.seen p (s.runFresh p input).1, (s.runFresh p input).2.input, none) := by
  have well : (p.run s.host (.initial s.host input)).1.error? = none := by
    rw [Report.error?]
    exact ended ▸ rfl
  simp only [run]
  split
  · rfl
  · next failed =>
    cases well.symm.trans failed

theorem seen_of_bare_eq (s : Session) {p q : Program} (same : p.bare = q.bare) (report : Report) :
    s.seen p report = s.seen q report := by
  obtain ⟨name, body⟩ := Program.mk.inj same
  have length : p.body.length = q.body.length := by
    simpa using congrArg List.length body
  simp only [seen, name, length]

end Session

/-- A source and the lines that its program reads, as they are given to a console. The source is a
program and no part of it up to the end of an earlier line is one. The program comes to its end on
the lines, and reads them all. -/
structure Job (s : Session) where
  source : Text
  data : Text
  program : Program
  endsLine : source.EndsLine
  compiles : Program.ofSource source = .ok program
  first : ∀ a b, source = a ++ b → a.EndsLine → b ≠ Text.empty → ∀ p, Program.ofSource a ≠ .ok p
  lines : AreLines data.bytes
  ended : (s.runFresh program (.stream data.bytes false)).1.halt = none
  read : (s.runFresh program (.stream data.bytes false)).2.input = .stream [] false

namespace Job

variable {s : Session}

/-- What comes of the program alone on its lines. -/
def report (j : Job s) : Report := (s.runFresh j.program (.stream j.data.bytes false)).1

/-- What is seen of the program alone on its lines. -/
def screen (j : Job s) : Screen := s.seen j.program j.report

/-- Jobs one after another, each a source and the lines that its program reads. -/
def stream (jobs : List (Job s)) : List UInt8 :=
  jobs.flatMap fun j => j.source.bytes ++ j.data.bytes

theorem stream_cons (j : Job s) (jobs : List (Job s)) :
    stream (j :: jobs) = j.source.bytes ++ (j.data.bytes ++ stream jobs) := by
  simp [stream]

/-- Nobody is prompted for a line, and where other bytes follow the lines, the program has the same
run and leaves these bytes. -/
theorem framed (j : Job s) :
    (∀ t, Event.prompt t ∉ j.report.log) ∧
    ∀ tail, s.runFresh j.program (.stream (j.data.bytes ++ tail) false) =
      (j.report, (s.runFresh j.program (.stream j.data.bytes false)).2.more tail) := by
  have lines : (Channels.initial s.host (.stream j.data.bytes false)).input.IsLines := j.lines
  exact Program.frames_runFor lines j.ended

/-- The program has the same run wherever it stands and whatever follows its lines, and leaves what
follows. -/
theorem runFresh_of_bare_eq (j : Job s) {p : Program} (same : p.bare = j.program.bare)
    (tail : List UInt8) :
    (s.runFresh p (.stream (j.data.bytes ++ tail) false)).1 = j.report ∧
    (s.runFresh p (.stream (j.data.bytes ++ tail) false)).2.input = .stream tail false := by
  have framed := j.framed.2 tail
  have ended : (s.runFresh j.program (.stream (j.data.bytes ++ tail) false)).1.halt = none := by
    rw [framed]
    exact j.ended
  have again : s.runFresh p (.stream (j.data.bytes ++ tail) false) =
      s.runFresh j.program (.stream (j.data.bytes ++ tail) false) :=
    Program.runFor_of_bare_eq same.symm ended
  rw [again, framed]
  exact ⟨rfl, congrArg (Input.more tail) j.read⟩

/-- The source is the same program behind other blank lines. -/
theorem exists_ofSource (j : Job s) {blanks src : Text} (source : j.source = blanks ++ src)
    (dropped : blanks.AreBlankLines) :
    ∃ p, Program.ofSource src = .ok p ∧ p.bare = j.program.bare :=
  (dropped.sameUpTo_ofSource src).exists_ok (source ▸ j.compiles)

/-- A part of the source is no program, and the error says that more could follow. -/
theorem exists_incomplete (j : Job s) {blanks src later : Text}
    (source : j.source = blanks ++ src ++ later) (dropped : blanks.AreBlankLines)
    (endsLine : src.EndsLine) (more : later ≠ Text.empty) :
    ∃ e, Program.ofSource src = .error e ∧ e.isIncomplete = true := by
  cases compiled : Program.ofSource src with
  | ok p =>
    obtain ⟨q, early, _⟩ := (dropped.sameUpTo_ofSource src).symm.exists_ok compiled
    exact absurd early (j.first _ _ source (endsLine.append _) more q)
  | error e =>
    refine ⟨e, rfl, ?_⟩
    cases definite : e.isIncomplete with
    | true => rfl
    | false =>
      obtain ⟨_, compiles, _⟩ := j.exists_ofSource (source.trans (Text.append_assoc ..)) dropped
      obtain ⟨_, fails⟩ := Program.ofSource_append_of_error endsLine compiled definite later
      cases compiles.symm.trans fails

/-- What the program writes is all that is printed. -/
theorem out_screen (j : Job s) : j.screen.out = writtenText j.report.output := by
  have unprompted : ∀ t, Event.prompt t ∉ j.report.log.toList := fun t shown =>
    j.framed.1 t (Array.mem_toList_iff.1 shown)
  simp [screen, Session.seen, Screen.print, Report.output, concat_shown unprompted]

theorem err_screen (j : Job s) (quiet : s.verbose = false)
    (level : s.settings.log.level ≠ "debug") : j.screen.err = Text.empty := by
  simp [screen, Session.seen, Screen.print, Session.log_of_quiet quiet level]

end Job

/-- Turns that take the lines of a text as source and run the program of a job at the last of them.
Lines before it are dropped or kept, and nothing is seen of them. The program finds its lines and
`tail` in the stream, and leaves `tail`. -/
inductive Job.Taken {s : Session} (j : Job s) (tail : List UInt8) : Text → List Turn → Prop where
  | drop {line src : Text} {turns : List Turn} (later : Taken j tail src turns) :
      Taken j tail (line ++ src) (⟨line, .blank, {}⟩ :: turns)
  | keep {line src : Text} {turns : List Turn} (later : Taken j tail src turns) :
      Taken j tail (line ++ src) (⟨line, .kept, {}⟩ :: turns)
  | run {line : Text} {p : Program} (same : p.bare = j.program.bare) :
      Taken j tail line [⟨line, .ran p (.stream (j.data.bytes ++ tail) false) j.report
        (.stream tail false), j.screen⟩]

/-- Turns that take jobs one after another, and then find the end of the stream. -/
inductive AllTaken {s : Session} : List (Job s) → List Turn → Prop where
  | ended : AllTaken [] [⟨Text.empty, .blank, {}⟩]
  | job {j : Job s} {jobs : List (Job s)} {first later : List Turn}
      (taken : j.Taken (Job.stream jobs) j.source first) (rest : AllTaken jobs later) :
      AllTaken (j :: jobs) (first ++ later)

theorem Job.Taken.screens {s : Session} {j : Job s} {tail : List UInt8} {src : Text}
    {turns : List Turn} (taken : j.Taken tail src turns) :
    Screen.all (turns.map Turn.screen) = j.screen := by
  induction taken with
  | drop later ih => exact ih
  | keep later ih => exact ih
  | run same => exact Screen.append_empty _

theorem AllTaken.screens {s : Session} {jobs : List (Job s)} {turns : List Turn}
    (taken : AllTaken jobs turns) :
    Screen.all (turns.map Turn.screen) = .all (jobs.map Job.screen) := by
  induction taken with
  | ended => rfl
  | job taken rest ih =>
    rw [List.map_append, Screen.all_append, taken.screens, ih]
    rfl

namespace Session

variable {s : Session}

section Line

variable {fuel : Nat} {buffer : Text} {rest line after : List UInt8}

theorem turns_of_blank (split : splitLine? rest = some (line, after))
    (blank : (buffer ++ (⟨line⟩ ++ "\n") : Text).isBlank = true) :
    s.turns (fuel + 1) buffer rest =
      ⟨⟨line⟩ ++ "\n", .blank, {}⟩ :: s.turns fuel Text.empty after := by
  simp [turns, split, verdict, blank, answer, Input.rest]

theorem turns_of_incomplete (split : splitLine? rest = some (line, after))
    (full : (buffer ++ (⟨line⟩ ++ "\n") : Text).isBlank = false) {e : CompileError}
    (failed : Program.ofSource (buffer ++ (⟨line⟩ ++ "\n")) = .error e)
    (incomplete : e.isIncomplete = true) :
    s.turns (fuel + 1) buffer rest =
      ⟨⟨line⟩ ++ "\n", .kept, {}⟩ :: s.turns fuel (buffer ++ (⟨line⟩ ++ "\n")) after := by
  simp [turns, split, verdict, full, failed, incomplete, answer, Input.rest]

theorem turns_of_program (j : Job s) {tail : List UInt8}
    (split : splitLine? rest = some (line, j.data.bytes ++ tail))
    (full : (buffer ++ (⟨line⟩ ++ "\n") : Text).isBlank = false) {p : Program}
    (compiled : Program.ofSource (buffer ++ (⟨line⟩ ++ "\n")) = .ok p)
    (same : p.bare = j.program.bare) :
    s.turns (fuel + 1) buffer rest =
      ⟨⟨line⟩ ++ "\n", .ran p (.stream (j.data.bytes ++ tail) false) j.report (.stream tail false),
        j.screen⟩ :: s.turns fuel Text.empty tail := by
  obtain ⟨report, left⟩ := j.runFresh_of_bare_eq same tail
  have ended : (s.runFresh p (.stream (j.data.bytes ++ tail) false)).1.halt = none := by
    rw [report]
    exact j.ended
  have seen : s.seen p j.report = j.screen := s.seen_of_bare_eq same j.report
  simp [turns, split, verdict, full, compiled, answer, run_of_ended s ended, report, left, seen,
    Input.rest]

end Line

/-- The console takes what is left of a source, line by line. `blanks` are the lines that it has
dropped, and `buffer` are those that it has kept. -/
theorem exists_taken (j : Job s) (tail : List UInt8) {fuel : Nat} {blanks buffer rest : Text}
    (source : j.source = blanks ++ (buffer ++ rest)) (dropped : blanks.AreBlankLines)
    (more : rest ≠ Text.empty) (enough : (rest.bytes ++ (j.data.bytes ++ tail)).length < fuel) :
    ∃ turns fuel', j.Taken tail rest turns ∧ tail.length < fuel' ∧
      s.turns fuel buffer (rest.bytes ++ (j.data.bytes ++ tail)) =
        turns ++ s.turns fuel' Text.empty tail := by
  induction fuel generalizing blanks buffer rest with
  | zero => exact absurd enough (Nat.not_lt_zero _)
  | succ fuel ih =>
    have ends : rest.EndsLine := by
      have all := j.endsLine
      rw [source, ← Text.append_assoc] at all
      exact all.of_append more
    obtain ⟨line, after, rfl, split⟩ := ends.exists_line
    have split' := splitLine?_append split (j.data.bytes ++ tail)
    have source' : j.source = blanks ++ (buffer ++ (⟨line⟩ ++ "\n")) ++ after := by
      simp only [source, Text.append_assoc]
    have endsLine : (buffer ++ (⟨line⟩ ++ "\n")).EndsLine := by
      rw [← Text.append_assoc]
      exact Text.EndsLine.append_newline _
    have shorter : (after.bytes ++ (j.data.bytes ++ tail)).length < fuel := by
      have newline : ("\n" : Text).bytes.length = 1 := rfl
      simp only [Text.bytes_append, List.length_append, newline] at enough ⊢
      omega
    cases blank : (buffer ++ (⟨line⟩ ++ "\n")).isBlank with
    | true =>
      have dropped' := dropped.append blank endsLine
      by_cases last : after = Text.empty
      -- Blank lines are no program, so they are not all of the source.
      · rw [last, Text.append_empty] at source'
        exact absurd (source' ▸ j.compiles) (dropped'.ofSource_ne_ok _)
      · have source'' : j.source =
            blanks ++ (buffer ++ (⟨line⟩ ++ "\n")) ++ (Text.empty ++ after) := by
          rw [source', Text.empty_append]
        obtain ⟨turns, fuel', rest, enough', later⟩ := ih source'' dropped' last shorter
        refine ⟨_ :: turns, fuel', .drop rest, enough', ?_⟩
        rw [turns_of_blank split' blank, later]
        rfl
    | false =>
      by_cases last : after = Text.empty
      -- Up to its last line the source is a program, before that it can be completed.
      · subst last
        rw [Text.append_empty] at source' split' ⊢
        obtain ⟨p, compiled, same⟩ := j.exists_ofSource source' dropped
        refine ⟨_, fuel, .run same, ?_, turns_of_program j split' blank compiled same⟩
        simp only [List.length_append] at shorter
        omega
      · obtain ⟨e, failed, incomplete⟩ := j.exists_incomplete source' dropped endsLine last
        obtain ⟨turns, fuel', rest, enough', later⟩ := ih (source'.trans (Text.append_assoc ..))
          dropped last shorter
        refine ⟨_ :: turns, fuel', .keep rest, enough', ?_⟩
        rw [turns_of_incomplete split' blank failed incomplete, later]
        rfl

/-- The console takes jobs one after another. -/
theorem allTaken_turns (jobs : List (Job s)) {fuel : Nat}
    (enough : (Job.stream jobs).length < fuel) :
    AllTaken jobs (s.turns fuel Text.empty (Job.stream jobs)) := by
  induction jobs generalizing fuel with
  | nil =>
    cases fuel with
    | zero => cases enough
    | succ fuel => exact .ended
  | cons j jobs ih =>
    have more : j.source ≠ Text.empty := by
      intro none
      have ends := j.endsLine
      rw [none] at ends
      cases ends
    have source : j.source = Text.empty ++ (Text.empty ++ j.source) := by
      rw [Text.empty_append, Text.empty_append]
    rw [Job.stream_cons] at enough ⊢
    obtain ⟨turns, fuel', taken, enough', eq⟩ :=
      exists_taken j (Job.stream jobs) source .empty more enough
    rw [eq]
    exact .job taken (ih enough')

/-- Where a stream is made of jobs, the console runs their programs one after another, each as it
runs alone on its own lines, and every line is taken by the console as a line of a source or read by
the program it belongs to. What is seen is what is seen of the programs; nothing is reported but the
log, if one is wanted. -/
theorem bufferedConsole_of_jobs (s : Session) (jobs : List (Job s)) :
    AllTaken jobs (s.consoleTurns (Job.stream jobs)) ∧
    s.bufferedConsole (Job.stream jobs) false =
      (.all ((s.consoleTurns (Job.stream jobs)).map Turn.screen), .ok) ∧
    s.bufferedConsole (Job.stream jobs) false = (.all (jobs.map Job.screen), .ok) ∧
    (s.bufferedConsole (Job.stream jobs) false).1.out =
      Text.concat (jobs.map fun j => writtenText j.report.output) ∧
    (s.verbose = false → s.settings.log.level ≠ "debug" →
      (s.bufferedConsole (Job.stream jobs) false).1.err = Text.empty) := by
  have taken : AllTaken jobs (s.consoleTurns (Job.stream jobs)) :=
    allTaken_turns jobs (Nat.lt_succ_self _)
  have shown : s.bufferedConsole (Job.stream jobs) false =
      (.all ((s.consoleTurns (Job.stream jobs)).map Turn.screen), .ok) :=
    bufferedLoop_eq_turns s _ _ _
  have screens : s.bufferedConsole (Job.stream jobs) false = (.all (jobs.map Job.screen), .ok) := by
    rw [shown, taken.screens]
  refine ⟨taken, shown, screens, ?_, ?_⟩
  · rw [screens]
    simp only [Screen.all, List.map_map, Function.comp_def, Job.out_screen]
  · intro quiet level
    have silent (j : Job s) : j.screen.err = Text.empty := j.err_screen quiet level
    rw [screens]
    simp [Screen.all, Text.concat, Text.empty, List.flatMap_map, silent]

/-- A session with the default settings. -/
def plain : Session := { settings := {}, stamps := ⟨.text "", .text "", .text ""⟩ }

end Session

namespace Job

/-- The beginnings of a source can be looked through. -/
theorem first_of_take {source : Text}
    (none : ∀ n < source.bytes.length, Text.EndsLine ⟨source.bytes.take n⟩ →
      (Program.ofSource ⟨source.bytes.take n⟩).isOk = false)
    (a b : Text) (parts : source = a ++ b) (ends : a.EndsLine) (more : b ≠ Text.empty)
    (p : Program) : Program.ofSource a ≠ .ok p := by
  intro compiled
  have nonempty : 0 < b.bytes.length := List.length_pos_iff.2 fun empty => more (Text.ext empty)
  have shorter : a.bytes.length < source.bytes.length := by
    rw [parts, Text.bytes_append, List.length_append]
    omega
  have fails := none a.bytes.length shorter
  rw [parts, Text.bytes_append, List.take_left] at fails
  have failed := fails ends
  rw [compiled] at failed
  cases failed

/-- A program that reads nothing. -/
def one : Job .plain where
  source := "algoritmo uno\nescribir 1\nfinalgoritmo\n"
  data := ""
  program := ⟨"uno", [.print (some ⟨2, 1⟩) [.number (some ⟨2, 10⟩) 1]]⟩
  endsLine := by decide
  compiles := rfl
  first := first_of_take (by decide +kernel)
  lines := by decide
  ended := by decide +kernel
  read := by decide +kernel

/-- A program behind a blank line, which reads one line. -/
def successor : Job .plain where
  source := "\nalgoritmo dos\nleer x\nescribir x + 1\nfinalgoritmo\n"
  data := "41\n"
  program := ⟨"dos", [.read (some ⟨3, 1⟩) [⟨some ⟨3, 6⟩, "x"⟩],
    .print (some ⟨4, 1⟩) [.binary (some ⟨4, 12⟩) .add (.name (some ⟨4, 10⟩) "x")
      (.number (some ⟨4, 14⟩) 1)]]⟩
  endsLine := by decide
  compiles := rfl
  first := first_of_take (by decide +kernel)
  lines := by decide
  ended := by decide +kernel
  read := by decide +kernel

end Job

/-- The line behind the second program goes to it, and the source behind that line is taken. -/
theorem Session.bufferedConsole_one_successor_one :
    AllTaken [Job.one, .successor, .one]
        (plain.consoleTurns (Job.stream [Job.one, .successor, .one])) ∧
      (plain.bufferedConsole (Job.stream [Job.one, .successor, .one]) false).1.out =
        "1\n42\n1\n" ∧
      (plain.bufferedConsole (Job.stream [Job.one, .successor, .one]) false).1.err =
        Text.empty := by
  obtain ⟨taken, _, _, out, err⟩ := bufferedConsole_of_jobs plain [.one, .successor, .one]
  refine ⟨taken, out.trans ?_, err rfl (by decide)⟩
  decide +kernel

end Cli

end Pseudocode

import Pseudocode.Cli.Session
import Pseudocode.Proofs.Program.Steps
import Pseudocode.Proofs.Token.Lines

/-!
# Errors that no further input mends

An error is definite unless it blames the end of the source. A definite error is made by a token or
a character that is there, and what follows it is never looked at. So where a source has one, every
longer source has it too, and the console drops no source that further lines would complete.
-/

namespace Pseudocode

namespace Program

/-- A definite error of the parser stays the error of every longer list of tokens. -/
theorem ofTokens_append_of_error {ts : List Token} {e : ParseError} (h : ofTokens ts = .error e)
    (definite : e.isIncomplete = false) (us : List Token) : ofTokens (ts ++ us) = .error e := by
  refine Except.foldlM_append_bind_of_error h (fun s hs => ?_) _ _
  -- The error blames a token, and what is left when all tokens are taken blames the end.
  have blamed : e.token = Token.ending ts := Parser.finish_eq_error rfl hs
  rw [ParseError.isIncomplete, blamed] at definite
  cases definite

/-- A source with a definite error has no longer source that is a program. -/
theorem ofSource_append_of_error {src : Text} (endsLine : src.EndsLine) {e : CompileError}
    (h : ofSource src = .error e) (definite : e.isIncomplete = false) (later : Text) :
    ∃ e', ofSource (src ++ later) = .error e' := by
  cases hall : scan (src ++ later) with
  | error e' => exact ⟨.lex e', by rw [ofSource, hall]⟩
  | ok all =>
    cases hscan : scan src with
    | error lexical =>
      rw [ofSource, hscan] at h
      cases h
      rw [scan_append_of_error endsLine hscan definite later] at hall
      cases hall
    | ok ts =>
      obtain ⟨us, rfl⟩ := scan_append_of_ok endsLine hscan hall
      rw [ofSource, hscan] at h
      obtain ⟨parsing, hts, rfl⟩ := Except.mapError_eq_error.1 h
      have stays := ofTokens_append_of_error hts definite us
      refine ⟨.parse parsing, ?_⟩
      rw [ofSource, hall]
      exact Except.mapError_eq_error.2 ⟨parsing, stays, rfl⟩

end Program

namespace Cli.Session

/-- The console keeps a source that is no program while another one that starts with it is. -/
theorem feed_of_completable {buffer line later : Text} {e : CompileError} {p : Program}
    (h : Program.ofSource (buffer ++ (line ++ "\n")) = .error e)
    (completed : Program.ofSource (buffer ++ (line ++ "\n") ++ later) = .ok p)
    (s : Session) (input : Input) :
    s.feed buffer (line ++ "\n") true input =
      ⟨{}, if (buffer ++ (line ++ "\n")).isBlank then Text.empty else buffer ++ (line ++ "\n"),
        input⟩ := by
  have incomplete : e.isIncomplete = true := by
    cases definite : e.isIncomplete with
    | true => rfl
    | false =>
      have endsLine : (buffer ++ (line ++ "\n")).EndsLine := by
        rw [← Text.append_assoc]
        exact Text.EndsLine.append_newline _
      obtain ⟨e', h'⟩ := Program.ofSource_append_of_error endsLine h definite later
      rw [completed] at h'
      cases h'
  unfold feed
  simp only [h, incomplete, Bool.and_self, if_true]
  split
  · rfl
  · rfl

end Cli.Session

namespace Program

/-- A definite error of tokens is the error of every longer list of tokens, and a source that ends
in a line break and has a definite error has no longer source that is a program. So the console
shows nothing for a source that further lines would complete, and keeps it unless it is blank. -/
theorem definite_error_stays :
    (∀ (ts us : List Token) (e : ParseError), ofTokens ts = .error e → e.isIncomplete = false →
      ofTokens (ts ++ us) = .error e) ∧
    (∀ (src later : Text) (e : CompileError), src.EndsLine → ofSource src = .error e →
      e.isIncomplete = false → ∃ e', ofSource (src ++ later) = .error e') ∧
    (∀ (s : Cli.Session) (buffer line later : Text) (input : Input) (e : CompileError)
      (p : Program), ofSource (buffer ++ (line ++ "\n")) = .error e →
      ofSource (buffer ++ (line ++ "\n") ++ later) = .ok p →
      s.feed buffer (line ++ "\n") true input =
        ⟨{}, if (buffer ++ (line ++ "\n")).isBlank then Text.empty else buffer ++ (line ++ "\n"),
          input⟩) := by
  refine ⟨?_, ?_, ?_⟩
  · intro ts us e h definite
    exact ofTokens_append_of_error h definite us
  · intro src later e endsLine h definite
    exact ofSource_append_of_error endsLine h definite later
  · intro s buffer line later input e p h completed
    exact Cli.Session.feed_of_completable h completed s input

/-- A misplaced word is reported at once; a loop that is not closed is kept. -/
theorem definite_error_stays_misplaced :
    (∃ e', ofSource ("finsi\n" ++ "finalgoritmo\n") = .error e') ∧
      ∀ (s : Cli.Session) (input : Input),
        s.feed "algoritmo p\n" ("repetir" ++ "\n") true input =
          ⟨{}, "algoritmo p\nrepetir\n", input⟩ := by
  obtain ⟨_, source, console⟩ := definite_error_stays
  refine ⟨source _ _ _ (by decide) rfl rfl, fun s input => ?_⟩
  exact console s _ _ "hasta que verdadero\nfinalgoritmo\n" input _ _ rfl rfl

end Program

end Pseudocode

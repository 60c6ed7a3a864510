import Pseudocode.Proofs.Token.Tiling

/-!
# Scanning line by line

A source that scans by itself is a tiling, and a line break behind it changes none of its pieces:
no lexeme goes on across it, and a comment ends before it. So behind the line break the scanner is
where it is at the start of a source, but for the line it has come to and the tokens it has made;
and neither matters for what it does next. A source whose scan fails for a character fails so
whatever follows.
-/

namespace Pseudocode

namespace Location

/-- The place as many lines further down. -/
def down (lines : Nat) (l : Location) : Location := ⟨l.line + lines, l.column⟩

theorem down_advance (lines : Nat) (l : Location) (c : Char) :
    (l.down lines).advance c = (l.advance c).down lines := by
  unfold advance
  split
  · simp only [down, mk.injEq, and_true]
    omega
  · rfl

theorem foldl_advance_down (lines : Nat) (l : Location) (cs : List Char) :
    cs.foldl advance (l.down lines) = (cs.foldl advance l).down lines := by
  induction cs generalizing l with
  | nil => rfl
  | cons c cs ih => rw [List.foldl_cons, down_advance, ih, List.foldl_cons]

end Location

/-- The same token further down. -/
def Token.down (lines : Nat) (t : Token) : Token := { t with loc := t.loc.map (.down lines) }

/-- The same failure further down. -/
def LexError.down (lines : Nat) (e : LexError) : LexError := { e with loc := e.loc.down lines }

namespace Scanner

variable {lines : Nat}

/-- The same lexeme under way further down. -/
def Mode.down (lines : Nat) : Mode → Mode
  | .between => .between
  | .number place digits => .number (place.down lines) digits
  | .word place letters => .word (place.down lines) letters
  | .string place body => .string (place.down lines) body
  | .slash place => .slash (place.down lines)
  | .less place => .less (place.down lines)
  | .greater place => .greater (place.down lines)
  | .comment => .comment

/-- The same state further down, behind tokens that were made before. -/
def behind (lines : Nat) (before : List Token) (s : Scanner) : Scanner :=
  ⟨s.mode.down lines, s.here.down lines, s.tokens.map (.down lines) ++ before.reverse⟩

theorem extend?_down (m : Mode) (c : Char) : (m.down lines).extend? c =
    (m.extend? c).map fun r => (r.1.down lines, r.2.map (.down lines)) := by
  cases m with
  | between => rfl
  | comment =>
    simp only [Mode.down, Mode.extend?, Option.map_some, Option.map_none]
    split
    · rfl
    · rfl
  | number | word | string | slash | greater =>
    simp only [Mode.down, Mode.extend?]
    split
    · rfl
    · rfl
  | less =>
    simp only [Mode.down, Mode.extend?]
    split
    · rfl
    · split
      · rfl
      · rfl

theorem close_down (m : Mode) :
    (m.down lines).close = m.close.view (.down lines) (Option.map (.down lines)) := by
  cases m with
  | _ => rfl

theorem start_down (here : Location) (c : Char) : start (here.down lines) c =
    (start here c).view (.down lines) fun r => (r.1.down lines, r.2.map (.down lines)) := by
  unfold start
  repeat' split
  all_goals rfl

/-- A character does further down what it does here. -/
theorem step_behind (before : List Token) (s : Scanner) (c : Char) :
    step (s.behind lines before) c = (step s c).view (.down lines) (behind lines before) := by
  unfold step
  rw [behind, extend?_down]
  cases s.mode.extend? c with
  | some r =>
    obtain ⟨mode, made⟩ := r
    cases made with
    | _ => simp [behind, Location.down_advance]
  | none =>
    refine (Except.view_bind (close_down s.mode) fun closed => ?_).symm
    refine Except.view_bind (start_down s.here c) fun r => ?_
    obtain ⟨mode, made⟩ := r
    cases closed with
    | _ =>
      cases made with
      | _ => simp [behind, Location.down_advance, pure, Except.pure]

theorem finish_behind (before : List Token) (s : Scanner) :
    (s.behind lines before).finish =
      s.finish.view (.down lines) fun made => before ++ made.map (.down lines) := by
  refine (Except.view_bind (close_down s.mode) fun closed => ?_).symm
  cases closed with
  | _ => simp [behind, pure, Except.pure]

/-- And so do all characters that follow. -/
theorem resume_behind (before : List Token) (s : Scanner) (cs : List Char) :
    (s.behind lines before).resume cs =
      (s.resume cs).view (.down lines) fun made => before ++ made.map (.down lines) := by
  induction cs generalizing s with
  | nil => exact finish_behind before s
  | cons c cs ih =>
    have same : step (s.behind lines before) c = _ := step_behind before s c
    cases first : step s c with
    | error e =>
      rw [first] at same
      rw [resume_cons_error first, resume_cons_error same]
      rfl
    | ok s' =>
      rw [first] at same
      rw [resume_cons first, resume_cons same, ih]

end Scanner

private theorem forall_head?_newline {P : Char → Prop} {rest : List Char}
    (ends : ∀ c ∈ rest.head?, P c) (atBreak : P '\n') (more : List Char) :
    ∀ c ∈ (rest ++ '\n' :: more).head?, P c := by
  cases rest with
  | nil =>
    intro c first
    cases first
    exact atBreak
  | cons => exact ends

/-- A part that is tiled is still tiled when a line break follows all that there was. -/
theorem Tiled.append_newline {done rest : List Char} {ts : List Token} (tiled : Tiled done ts rest)
    (more : List Char) : Tiled done ts (rest ++ '\n' :: more) := by
  induction tiled with
  | start rest => exact .start _
  | blank _ blank ih => exact .blank ih blank
  | comment _ noBreak ends ih =>
    rw [List.append_assoc] at ih
    exact .comment ih noBreak (forall_head?_newline ends rfl more)
  | token _ spelt ends ih =>
    rw [List.append_assoc] at ih
    exact .token ih spelt
      (forall_head?_newline ends (Token.Kind.not_extends_of_isBlank _ _ rfl) more)

/-- A line break has its character wherever it stands. -/
theorem Text.chars_append_newline (a b : Text) :
    (a ++ "\n" ++ b).chars = a.chars ++ '\n' :: b.chars := by
  have split : (a ++ "\n" ++ b).bytes = a.bytes ++ 10 :: b.bytes := List.append_assoc _ _ _
  rw [chars, split]
  exact Utf8.decodeAfter_append_ascii (by decide) a.bytes b.bytes (Nat.zero_le _)

section Join

variable {a : Text}

/-- Behind a source that scans and a line break, the scanner is at a start further down. -/
theorem scan_append_newline {ts : List Token} (first : scan a = .ok ts) (b : Text) :
    scan (a ++ "\n" ++ b) = (scan b).view (.down (1 + a.chars.count '\n'))
      fun us => ts ++ us.map (.down (1 + a.chars.count '\n')) := by
  have tiled := (scan_eq_ok_iff.1 first).append_newline b.chars
  have behind := (Tiled.blank tiled rfl).scanChars
  have place : Location.behind (a.chars ++ ['\n']) =
      Location.origin.down (1 + a.chars.count '\n') := by
    simp [Location.behind, Location.down, Location.origin]
    omega
  rw [List.append_assoc, List.singleton_append] at behind
  rw [scan, Text.chars_append_newline, behind, place]
  exact Scanner.resume_behind ts .initial b.chars

/-- A character that starts nothing does so whatever follows its source. -/
theorem scan_append_of_definite {e : LexError} (failed : scan a = .error e)
    (definite : e.cause.isIncomplete = false) (b : Text) :
    scan (a ++ "\n" ++ b) = .error e := by
  rw [scan, Text.chars_append_newline]
  refine Except.foldlM_append_bind_of_error failed (fun s ended => ?_) _ _
  rw [Scanner.finish_eq_error ended] at definite
  cases definite

/-- **Line breaks divide the work of the scanner.** Where what stands in front of a line break
scans, the rest scans as it would by itself, only further down: its tokens come behind those in
front, and its failure is the failure of the whole. Where what stands in front has a character that
starts nothing, that is the failure of the whole. -/
theorem scan_lines (a b : Text) :
    (∀ ts us, scan a = .ok ts → scan b = .ok us →
      scan (a ++ "\n" ++ b) = .ok (ts ++ us.map (.down (1 + a.chars.count '\n')))) ∧
    (∀ ts e, scan a = .ok ts → scan b = .error e →
      scan (a ++ "\n" ++ b) = .error (e.down (1 + a.chars.count '\n'))) ∧
    (∀ e, scan a = .error e → e.cause.isIncomplete = false →
      scan (a ++ "\n" ++ b) = .error e) := by
  refine ⟨?_, ?_, fun e failed definite => scan_append_of_definite failed definite b⟩
  · intro ts us first second
    rw [scan_append_newline first, second]
    rfl
  · intro ts e first second
    rw [scan_append_newline first, second]
    rfl

end Join

/-- Two slashes on either side of a line break are two operators, a string on the second line is
never closed, and a question mark on the first line is the failure of both. -/
theorem scan_lines_of_slash :
    (∃ ts us, scan "1 /" = .ok ts ∧ scan "/ 2" = .ok us ∧
      scan ("1 /" ++ "\n" ++ "/ 2") = .ok (ts ++ us.map (.down 1))) ∧
    scan ("1 /" ++ "\n" ++ " \"2") = .error ⟨⟨2, 2⟩, .unterminatedString⟩ ∧
    scan ("?" ++ "\n" ++ "\"2") = .error ⟨⟨1, 1⟩, .unexpectedCharacter '?'⟩ := by
  obtain ⟨ts, first⟩ : ∃ ts, scan "1 /" = .ok ts := ⟨_, by rfl⟩
  obtain ⟨us, second⟩ : ∃ us, scan "/ 2" = .ok us := ⟨_, by rfl⟩
  refine ⟨⟨ts, us, first, second, (scan_lines "1 /" "/ 2").1 ts us first second⟩, ?_, ?_⟩
  · exact (scan_lines "1 /" " \"2").2.1 ts ⟨⟨1, 2⟩, .unterminatedString⟩ first rfl
  · exact (scan_lines "?" "\"2").2.2 _ rfl rfl

end Pseudocode

import Pseudocode.Proofs.Outcome
import Pseudocode.Proofs.Text.Utf8
import Pseudocode.Token.Scanner

/-!
# Scanning in parts

The scanner only ever adds tokens, so the tokens of the first part of a source stay the first tokens
of the whole. A line break ends every lexeme but a string. So where a source ends in a line break
and scans, the next characters find no lexeme under way and nothing of what was scanned changes.

No token that is made stands for the end of the source, which only the parser adds.
-/

namespace Pseudocode

namespace Scanner

variable {s s' : Scanner} {c : Char} {cs : List Char}

/-- What one character does: it belongs to the lexeme under way, or it ends that lexeme and starts
another. -/
theorem step_cases (h : step s c = .ok s') :
    (∃ mode made, s.mode.extend? c = some (mode, made) ∧
      s' = ⟨mode, s.here.advance c, made.toList ++ s.tokens⟩) ∨
    (∃ closed mode made, s.mode.extend? c = none ∧ s.mode.close = .ok closed ∧
      start s.here c = .ok (mode, made) ∧
      s' = ⟨mode, s.here.advance c, made.toList ++ (closed.toList ++ s.tokens)⟩) := by
  unfold step at h
  cases hext : s.mode.extend? c with
  | some r =>
    obtain ⟨mode, made⟩ := r
    simp only [hext, Except.ok.injEq] at h
    exact .inl ⟨mode, made, rfl, h.symm⟩
  | none =>
    simp only [hext] at h
    obtain ⟨closed, hclose, h⟩ := Except.bind_eq_ok.1 h
    obtain ⟨⟨mode, made⟩, hstart, h⟩ := Except.bind_eq_ok.1 h
    exact .inr ⟨closed, mode, made, rfl, hclose, hstart, (Except.ok.inj h).symm⟩

theorem tokens_of_step (h : step s c = .ok s') : ∃ made, s'.tokens = made ++ s.tokens := by
  obtain ⟨_, made, _, rfl⟩ | ⟨closed, _, made, _, _, _, rfl⟩ := step_cases h
  · exact ⟨made.toList, rfl⟩
  · exact ⟨made.toList ++ closed.toList, by simp⟩

/-- Characters only add tokens. -/
theorem tokens_of_run (h : cs.foldlM step s = .ok s') : ∃ made, s'.tokens = made ++ s.tokens := by
  induction cs generalizing s with
  | nil =>
    cases h
    exact ⟨[], rfl⟩
  | cons c cs ih =>
    obtain ⟨middle, first, rest⟩ := Except.foldlM_cons_eq_ok.1 h
    obtain ⟨made, hmade⟩ := tokens_of_step first
    obtain ⟨later, hlater⟩ := ih rest
    exact ⟨later ++ made, by rw [hlater, hmade, List.append_assoc]⟩

/-- A line break ends every lexeme but a string. -/
theorem mode_of_newline (h : step s '\n' = .ok s') :
    s'.mode = .between ∨ ∃ loc body, s'.mode = .string loc body := by
  have blank : ∀ here, start here '\n' = .ok (.between, none) := fun here => by rfl
  obtain ⟨mode, made, hext, rfl⟩ | ⟨closed, mode, made, _, _, hstart, rfl⟩ := step_cases h
  · cases hm : s.mode with
    | string loc body =>
      rw [hm] at hext
      cases hext
      exact .inr ⟨_, _, rfl⟩
    | comment =>
      rw [hm] at hext
      cases hext
      exact .inl rfl
    | between => rw [hm] at hext; cases hext
    | number => rw [hm] at hext; cases hext
    | word => rw [hm] at hext; cases hext
    | slash => rw [hm] at hext; cases hext
    | less => rw [hm] at hext; cases hext
    | greater => rw [hm] at hext; cases hext
  · rw [blank] at hstart
    cases hstart
    exact .inl rfl

/-- The tokens of a run stay the first ones of every longer run. -/
theorem tokens_of_finish {made : List Token} (between : s.mode = .between)
    (first : s.finish = .ok made) (rest : cs.foldlM step s = .ok s') {all : List Token}
    (h : s'.finish = .ok all) : ∃ later, all = made ++ later := by
  obtain ⟨later, hlater⟩ := tokens_of_run rest
  obtain ⟨closed, _, h⟩ := Except.bind_eq_ok.1 h
  simp only [finish, between, Mode.close, bind, Except.bind, pure, Except.pure,
    Except.ok.injEq] at first
  cases h
  refine ⟨later.reverse ++ closed.toList.reverse, ?_⟩
  simp [← first, hlater]

/-- Only a string cannot be ended. -/
theorem finish_eq_error {e : LexError} (h : s.finish = .error e) :
    e.cause = .unterminatedString := by
  cases hm : s.mode with
  | string loc body =>
    simp only [finish, hm, Mode.close, bind, Except.bind, Except.error.injEq] at h
    exact h ▸ rfl
  | _ => simp [finish, hm, Mode.close, bind, Except.bind, pure, Except.pure] at h

theorem tokens_of_between {ts : List Token} (between : s.mode = .between) (h : s.finish = .ok ts) :
    s = ⟨.between, s.here, ts.reverse⟩ := by
  obtain ⟨mode, here, tokens⟩ := s
  subst between
  simp only [finish, Mode.close, bind, Except.bind, pure, Except.pure, Except.ok.injEq,
    Option.toList_none, List.nil_append] at h
  rw [← h, List.reverse_reverse]

section Strings

variable {place : Location} {body : List Char}

theorem step_quote (string : s.mode = .string place body) :
    step s '"' =
      .ok ⟨.between, s.here.advance '"', token place .string body.reverse :: s.tokens⟩ := by
  simp [step, string, Mode.extend?]

/-- A string goes on up to the next quotation mark. -/
theorem split_string (string : s.mode = .string place body) (h : cs.foldlM step s = .ok s')
    {all : List Token} (finished : s'.finish = .ok all) :
    ∃ more rest here, cs = more ++ '"' :: rest ∧
      rest.foldlM step ⟨.between, here, token place .string (body.reverse ++ more) :: s.tokens⟩ =
        .ok s' := by
  induction cs generalizing s body with
  | nil =>
    cases h
    simp [finish, string, Mode.close, bind, Except.bind] at finished
  | cons c cs ih =>
    obtain ⟨m, first, later⟩ := Except.foldlM_cons_eq_ok.1 h
    by_cases quote : c = '"'
    · subst quote
      simp only [step, string, Mode.extend?, beq_self_eq_true, if_true] at first
      cases first
      exact ⟨[], cs, s.here.advance '"', rfl, by simpa using later⟩
    · have goesOn : (c == '"') = false := beq_eq_false_iff_ne.2 quote
      simp only [step, string, Mode.extend?, goesOn, Bool.false_eq_true, if_false] at first
      cases first
      obtain ⟨more, rest, here, rfl, after⟩ := ih rfl later
      exact ⟨c :: more, rest, here, rfl, by simpa using after⟩

end Strings

theorem kind_of_extend? {m m' : Mode} {t : Token} (h : m.extend? c = some (m', some t)) :
    t.kind ≠ .endOfInput := by
  cases m with
  | string | less | greater =>
    simp only [Mode.extend?] at h
    grind [token]
  | _ =>
    simp only [Mode.extend?] at h
    grind

theorem kind_of_close {m : Mode} {t : Token} (h : m.close = .ok (some t)) :
    t.kind ≠ .endOfInput := by
  cases m with
  | word =>
    cases h
    simp only [wordToken, wordKind]
    grind
  | between | comment | string => cases h
  | number | slash | less | greater =>
    cases h
    simp [token]

theorem kind_of_start {here : Location} {m : Mode} {t : Token}
    (h : start here c = .ok (m, some t)) : t.kind ≠ .endOfInput := by
  have mark {kind : Token.Kind} (h : punctuation? c = some kind) : kind ≠ .endOfInput := by
    rw [punctuation?.eq_def] at h
    split at h
    all_goals
      cases h
    all_goals
      exact nofun
  grind [start, token]

/-- Every token is made by a character that belongs to a lexeme, by the end of a lexeme, or by a
character that is one by itself. So a property is one of all tokens if it holds in these cases. -/
structure Makes (P : Token → Prop) : Prop where
  extend {m m' : Mode} {c : Char} {t : Token} : m.extend? c = some (m', some t) → P t
  close {m : Mode} {t : Token} : m.close = .ok (some t) → P t
  start {here : Location} {c : Char} {m : Mode} {t : Token} : start here c = .ok (m, some t) → P t

namespace Makes

variable {P : Token → Prop} (makes : Makes P)
include makes

theorem step (h : step s c = .ok s') (before : ∀ t ∈ s.tokens, P t) : ∀ t ∈ s'.tokens, P t := by
  obtain ⟨_, made, hext, rfl⟩ | ⟨closed, _, made, _, hclose, hstart, rfl⟩ := step_cases h
  · refine List.forall_mem_append.2 ⟨fun t ht => ?_, before⟩
    rw [Option.mem_toList] at ht
    exact makes.extend (ht ▸ hext)
  · refine List.forall_mem_append.2
      ⟨fun t ht => ?_, List.forall_mem_append.2 ⟨fun t ht => ?_, before⟩⟩
    · rw [Option.mem_toList] at ht
      exact makes.start (ht ▸ hstart)
    · rw [Option.mem_toList] at ht
      exact makes.close (ht ▸ hclose)

theorem run (h : cs.foldlM Scanner.step s = .ok s') (before : ∀ t ∈ s.tokens, P t) :
    ∀ t ∈ s'.tokens, P t := by
  induction cs generalizing s with
  | nil =>
    cases h
    exact before
  | cons c cs ih =>
    obtain ⟨middle, first, rest⟩ := Except.foldlM_cons_eq_ok.1 h
    exact ih rest (makes.step first before)

theorem scan {src : Text} {ts : List Token} (h : scan src = .ok ts) : ∀ t ∈ ts, P t := by
  obtain ⟨s, hs, hts⟩ := Except.bind_eq_ok.1 h
  obtain ⟨closed, hclose, hts⟩ := Except.bind_eq_ok.1 hts
  cases hts
  intro t ht
  rcases List.mem_append.1 (List.mem_reverse.1 ht) with ht | ht
  · rw [Option.mem_toList] at ht
    exact makes.close (ht ▸ hclose)
  · exact makes.run hs nofun t ht

end Makes

end Scanner

variable {src : Text}

theorem kinds_of_scan {ts : List Token} (h : scan src = .ok ts) :
    ∀ t ∈ ts, t.kind ≠ .endOfInput := by
  have makes : Scanner.Makes fun t => t.kind ≠ .endOfInput :=
    ⟨Scanner.kind_of_extend?, Scanner.kind_of_close, Scanner.kind_of_start⟩
  exact makes.scan h

/-- Where a line ends, no lexeme but a string is under way. -/
theorem Scanner.mode_of_endsLine (endsLine : src.EndsLine) {s : Scanner}
    (h : src.chars.foldlM step initial = .ok s) :
    s.mode = .between ∨ ∃ loc body, s.mode = .string loc body := by
  obtain ⟨cs, hsrc, _⟩ := endsLine.chars_append
  rw [hsrc, List.foldlM_append] at h
  obtain ⟨last, _, hlast⟩ := Except.bind_eq_ok.1 h
  obtain ⟨s', hbreak, hnil⟩ := Except.foldlM_cons_eq_ok.1 hlast
  cases hnil
  exact mode_of_newline hbreak

theorem Scanner.string_of_finish_error (endsLine : src.EndsLine) {s : Scanner}
    (h : src.chars.foldlM step initial = .ok s) {e : LexError} (failed : s.finish = .error e) :
    ∃ place body, s.mode = .string place body := by
  rcases mode_of_endsLine endsLine h with between | string
  · simp [finish, between, Mode.close, bind, Except.bind, pure, Except.pure] at failed
  · exact string

/-- A source that ends in a line break is scanned apart from what follows it. -/
theorem scan_append_of_ok (endsLine : src.EndsLine) {ts : List Token} (h : scan src = .ok ts)
    {later : Text} {all : List Token} (hall : scan (src ++ later) = .ok all) :
    ∃ us, all = ts ++ us := by
  obtain ⟨_, _, happend⟩ := endsLine.chars_append
  obtain ⟨s, hs, hts⟩ := Except.bind_eq_ok.1 h
  obtain ⟨s', hs', hall⟩ := Except.bind_eq_ok.1 hall
  rw [happend later, Except.foldlM_append_of_ok hs] at hs'
  refine Scanner.tokens_of_finish ?_ hts hs' hall
  -- A string that is still open could not be ended.
  obtain between | ⟨loc, body, hstring⟩ := Scanner.mode_of_endsLine endsLine hs
  · exact between
  · simp [Scanner.finish, hstring, Scanner.Mode.close, bind, Except.bind] at hts

/-- A character that starts no token does so whatever follows its line. -/
theorem scan_append_of_error (endsLine : src.EndsLine) {e : LexError} (h : scan src = .error e)
    (definite : e.cause.isIncomplete = false) (later : Text) : scan (src ++ later) = .error e := by
  obtain ⟨_, _, happend⟩ := endsLine.chars_append
  rw [scan, scanChars, happend later]
  refine Except.foldlM_append_bind_of_error h (fun s hs => ?_) _ _
  rw [Scanner.finish_eq_error hs] at definite
  cases definite

end Pseudocode

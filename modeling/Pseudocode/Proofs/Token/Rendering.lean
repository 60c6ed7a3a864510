import Pseudocode.Proofs.Program.Layout
import Pseudocode.Proofs.Text.Characters
import Pseudocode.Proofs.Token.Tiling

/-!
# Tokens written out

The tokens of a source can be written on one line, with a blank between neighbours. A blank belongs
to no lexeme, so nothing that two neighbours could be together is ever read: the line is tiled by
the same lexemes, and its tokens say the same as those of the source. What the parser makes of them
differs in nothing but the places.

Not every list of tokens can be written so. Those that the scanner makes can, since it makes each of
them from a lexeme of its kind.
-/

namespace Pseudocode

namespace Token

/-- A token as it is written. Only a string is written with more than its value. -/
def lexeme (t : Token) : Text := if t.kind = .string then "\"" ++ t.value ++ "\"" else t.value

/-- Tokens written one after another, with a blank between neighbours. -/
def render (ts : List Token) : Text := Text.join " " (ts.map lexeme)

/-- A token is made from a lexeme of its kind. -/
def IsSpelt (t : Token) : Prop :=
  ∃ value lexeme, t.value = Text.ofChars value ∧ Spelt t.kind value lexeme

theorem Spelt.lexeme_eq {kind : Kind} {value lexeme : List Char} (spelt : Spelt kind value lexeme)
    (loc : Option Location) :
    (⟨kind, Text.ofChars value, loc⟩ : Token).lexeme = Text.ofChars lexeme := by
  cases spelt with
  | string =>
    rw [Token.lexeme, if_pos rfl, ← List.singleton_append, Text.ofChars_append,
      Text.ofChars_append, ← Text.append_assoc]
    rfl
  | mark mem =>
    have kinds : ∀ m ∈ marks, m.2 ≠ .string := by decide
    exact if_neg (kinds _ mem)
  | number | truth | keyword | identifier | assignment | operator => exact if_neg nofun

end Token

section Rendered

variable {ts : List Token}

/-- The tokens of a tiling are made from lexemes of their kinds. -/
theorem Tiled.isSpelt {done rest : List Char} (tiled : Tiled done ts rest) :
    ∀ t ∈ ts, t.IsSpelt := by
  induction tiled with
  | start => exact List.forall_mem_nil _
  | blank _ _ ih => exact ih
  | comment _ _ _ ih => exact ih
  | token _ spelt _ ih =>
    exact List.forall_mem_append.2 ⟨ih, List.forall_mem_singleton.2 ⟨_, _, rfl, spelt⟩⟩

/-- Characters that go on a tiling to its end, by tokens that say the same as these. -/
def Continues (ts : List Token) (cs : List Char) : Prop :=
  ∀ done us, Tiled done us cs →
    ∃ later, Tiled (done ++ cs) (us ++ later) [] ∧
      later.map Token.spelling = ts.map Token.spelling

/-- A last lexeme. -/
theorem continues_singleton {t : Token} {value lexeme : List Char}
    (made : t.value = Text.ofChars value) (spelt : Token.Spelt t.kind value lexeme) :
    Continues [t] lexeme := by
  intro done us tiled
  rw [← List.append_nil lexeme] at tiled
  refine ⟨[⟨t.kind, Text.ofChars value, some (.behind done)⟩], tiled.token spelt nofun, ?_⟩
  rw [← made]
  rfl

/-- A lexeme and a blank in front of others. -/
theorem Continues.cons {t : Token} {value lexeme cs : List Char} (others : Continues ts cs)
    (made : t.value = Text.ofChars value) (spelt : Token.Spelt t.kind value lexeme) :
    Continues (t :: ts) (lexeme ++ ' ' :: cs) := by
  intro done us tiled
  have ends : ∀ c ∈ (' ' :: cs).head?, ¬ t.kind.Extends lexeme c := by
    intro c first
    cases first
    exact Token.Kind.not_extends_of_isBlank _ _ rfl
  obtain ⟨later, whole, same⟩ := others _ _ ((tiled.token spelt ends).blank rfl)
  refine ⟨⟨t.kind, Text.ofChars value, some (.behind done)⟩ :: later, ?_, ?_⟩
  · rw [List.append_assoc, List.append_assoc, List.singleton_append] at whole
    rwa [List.append_assoc, List.singleton_append] at whole
  · rw [List.map_cons, List.map_cons, same, ← made]
    rfl

/-- Tokens that are made from lexemes are written as characters that can be divided again. -/
theorem exists_continues (spelt : ∀ t ∈ ts, t.IsSpelt) :
    ∃ cs, Token.render ts = Text.ofChars cs ∧ Continues ts cs := by
  induction ts with
  | nil => exact ⟨[], rfl, fun done us tiled => ⟨[], by simpa using tiled, rfl⟩⟩
  | cons t ts ih =>
    obtain ⟨⟨value, lexeme, made, first⟩, others⟩ := List.forall_mem_cons.1 spelt
    have written : t.lexeme = Text.ofChars lexeme := by
      rw [← first.lexeme_eq t.loc, ← made]
    obtain ⟨cs, rendered, goesOn⟩ := ih others
    cases ts with
    | nil => exact ⟨lexeme, written, continues_singleton made first⟩
    | cons t' ts =>
      refine ⟨lexeme ++ ' ' :: cs, ?_, goesOn.cons made first⟩
      have split : Token.render (t :: t' :: ts) = t.lexeme ++ " " ++ Token.render (t' :: ts) := rfl
      rw [split, written, rendered, List.append_cons, Text.ofChars_append, Text.ofChars_append]
      rfl

/-- **The tokens of a source can be written out and read again.** On one line, with a blank between
neighbours, they scan as tokens with the same kinds and values in the same order; and the line is
the same program as the tokens, up to the places, or has the same diagnostic. -/
theorem scan_render {src : Text} (scanned : scan src = .ok ts) :
    (∃ us, scan (Token.render ts) = .ok us ∧
      us.map Token.spelling = ts.map Token.spelling) ∧
    (Program.ofSource (Token.render ts)).view (·.diagnostic.bare) Program.bare =
      (Program.ofTokens ts).view (·.diagnostic.bare) Program.bare := by
  have tiled := scan_eq_ok_iff.1 scanned
  obtain ⟨cs, rendered, goesOn⟩ := exists_continues tiled.isSpelt
  obtain ⟨us, whole, same⟩ := goesOn [] [] (.start cs)
  have again : scan (Token.render ts) = .ok us := by
    rw [scan_eq_ok_iff, rendered, Text.chars_ofChars]
    exact whole
  refine ⟨⟨us, again, same⟩, ?_⟩
  have source : (Program.ofTokens ts).mapError .parse = Program.ofSource src := by
    rw [Program.ofSource, scanned]
  have alike := Program.view_ofSource_eq again scanned same
  rw [← source, Except.view_mapError] at alike
  exact alike

end Rendered

/-- A source whose lexemes stand side by side, with a remark and a string of blanks. -/
def crowded : Text :=
  "algoritmo a x<-1/ /2//x
  escribir\"  \",x<=-1finalgoritmo"

/-- The tokens of `crowded`, one by one. The parser refuses the second slash either way. -/
theorem scan_render_crowded :
    ∃ ts, scan crowded = .ok ts ∧
      Token.render ts = "algoritmo a x <- 1 / / 2 escribir \"  \" , x <= - 1 finalgoritmo" ∧
      (∃ us, scan (Token.render ts) = .ok us ∧
        us.map Token.spelling = ts.map Token.spelling) ∧
      (Program.ofSource (Token.render ts)).view (·.diagnostic.bare) Program.bare =
        (Program.ofTokens ts).view (·.diagnostic.bare) Program.bare := by
  have computed : ((scan crowded).toOption.any fun ts => decide (Token.render ts =
      "algoritmo a x <- 1 / / 2 escribir \"  \" , x <= - 1 finalgoritmo")) = true := by
    decide +kernel
  obtain ⟨ts, found, line⟩ := (Option.any_eq_true _ _).1 computed
  have scanned := Except.toOption_eq_some.1 found
  obtain ⟨again, alike⟩ := scan_render scanned
  exact ⟨ts, scanned, of_decide_eq_true line, again, alike⟩

end Pseudocode

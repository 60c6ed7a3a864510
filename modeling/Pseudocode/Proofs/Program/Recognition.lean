import Pseudocode.Proofs.Program.Completeness
import Pseudocode.Proofs.Program.Soundness

/-!
# The parser recognizes the grammar

Where all reserved words are in ASCII letters, the two ways in which the parser tells them apart are
one, and the parser accepts a list of tokens with a program exactly when the grammar derives that
program from them. Since the parser is a function, the grammar is unambiguous.
-/

namespace Pseudocode

/-- In ASCII letters, whatever the parser takes for a reserved word spells it. -/
theorem Token.MayRead.spells {t : Token} {k : Keyword} (h : t.MayRead k)
    (ascii : t.kind = .keyword → t.value.IsAsciiWord) : t.Spells k := by
  rcases h with h | ⟨kind, h⟩
  · simp only [Token.isKeyword, Bool.and_eq_true, beq_iff_eq] at h
    have hfold := ((ascii h.1).isAscii.sameFold_iff k.isAscii_text).1 h.2
    exact ⟨h.1, hfold.trans k.asciiLower_text⟩
  · refine ⟨kind, ?_⟩
    have found := List.find?_some h
    rw [beq_iff_eq, (ascii kind).isAscii.lower_eq] at found
    exact found.symm

namespace Program

/-- The parser accepts a list of tokens without an end, and with reserved words in ASCII letters,
with exactly the programs that the grammar derives from it; and from no list of tokens the grammar
derives two programs. -/
theorem ofTokens_eq_ok_iff_derives {ts : List Token} (notEnd : ∀ t ∈ ts, t.kind ≠ .endOfInput)
    (ascii : ∀ t ∈ ts, t.kind = .keyword → t.value.IsAsciiWord) :
    (∀ p, ofTokens ts = .ok p ↔ Derives Token.Spells (.program p) ts) ∧
      ∀ (us : List Token) (p q : Program), Derives Token.Spells (.program p) us →
        Derives Token.Spells (.program q) us → p = q := by
  refine ⟨fun p => ⟨fun h => ?_, ofTokens_of_derives⟩, fun us p q hp hq => ?_⟩
  · exact derives_of_ofTokens notEnd (fun t ht k may => may.spells (ascii t ht)) h
  · exact Except.ok.inj ((ofTokens_of_derives hp).symm.trans (ofTokens_of_derives hq))

/-- Tokens of a small program: a comparison with a negated constant, an assignment in a branch. -/
def branchTokens : List Token :=
  [⟨.keyword, "AlGoRiTmO", some ⟨1, 1⟩⟩, ⟨.identifier, "p", some ⟨1, 11⟩⟩,
   ⟨.keyword, "Si", some ⟨2, 1⟩⟩, ⟨.identifier, "x", some ⟨2, 4⟩⟩, ⟨.operator, "<", some ⟨2, 6⟩⟩,
   ⟨.operator, "-", some ⟨2, 8⟩⟩, ⟨.identifier, "E", some ⟨2, 9⟩⟩,
   ⟨.keyword, "ENTONCES", some ⟨2, 11⟩⟩, ⟨.identifier, "y", some ⟨3, 1⟩⟩,
   ⟨.assignment, "<-", some ⟨3, 3⟩⟩, ⟨.boolean, "Falso", some ⟨3, 6⟩⟩,
   ⟨.keyword, "finsi", some ⟨4, 1⟩⟩, ⟨.keyword, "FinAlgoritmo", some ⟨5, 1⟩⟩]

/-- The program of these tokens. -/
def branchProgram : Program :=
  ⟨"p", [.branch (some ⟨2, 1⟩)
    (.binary (some ⟨2, 6⟩) .lt (.name (some ⟨2, 4⟩) "x")
      (.unary (some ⟨2, 8⟩) .negate (.number (some ⟨2, 9⟩) Number.euler)))
    [.assign (some ⟨3, 1⟩) "y" (.boolean (some ⟨3, 6⟩) false)] none]⟩

theorem derives_branchProgram :
    (∀ t ∈ branchTokens, t.kind ≠ .endOfInput) ∧
      (∀ t ∈ branchTokens, t.kind = .keyword → t.value.IsAsciiWord) ∧
      Derives Token.Spells (.program branchProgram) branchTokens := by
  have notEnd : ∀ t ∈ branchTokens, t.kind ≠ .endOfInput := by decide +kernel
  have ascii : ∀ t ∈ branchTokens, t.kind = .keyword → t.value.IsAsciiWord := by decide +kernel
  refine ⟨notEnd, ascii, ((ofTokens_eq_ok_iff_derives notEnd ascii).1 branchProgram).1 ?_⟩
  rfl

end Program

end Pseudocode

import Pseudocode.Llvm.Printer
import Pseudocode.Proofs.Llvm.Places
import Pseudocode.Proofs.Run.Places

/-!
# Layout does not matter

Blanks, line breaks and comments only move the tokens between them. Two sources with the same
tokens, each in its own place, are told apart by nothing but the places in errors: the parser
accepts both or has the same to say about both, the programs do the same at their channels and leave
the same variables, and their modules have the same text.

Each part of the language commutes with the removal of places, so both sources are compared with
what is left of them without places.
-/

namespace Pseudocode

/-- A diagnostic without its place. -/
def Diagnostic.bare (d : Diagnostic) : Diagnostic := { d with loc := none }

/-- What a token says: all but its place. -/
def Token.spelling (t : Token) : Token.Kind × Text := (t.kind, t.value)

theorem Token.bare_eq_of_spelling {t u : Token} (same : t.spelling = u.spelling) :
    t.bare = u.bare := by
  obtain ⟨kind, value, _⟩ := t
  obtain ⟨rfl, rfl⟩ := Prod.mk.inj same
  rfl

theorem Token.map_bare_of_spelling {ts us : List Token}
    (same : ts.map Token.spelling = us.map Token.spelling) :
    ts.map Token.bare = us.map Token.bare := by
  induction ts generalizing us with
  | nil => rw [List.map_eq_nil_iff.1 same.symm]
  | cons t ts ih =>
    cases us with
    | nil => cases same
    | cons u us =>
      obtain ⟨first, rest⟩ := List.cons.inj same
      rw [List.map_cons, List.map_cons, Token.bare_eq_of_spelling first, ih rest]

namespace Program

/-- Programs that differ in their places have the same runs, up to the place of an error. -/
theorem runFor_alike {p q : Program} (same : p.bare = q.bare) (turns : Nat) (host : Host)
    (channels : Channels) :
    (p.runFor turns host channels).1.bare = (q.runFor turns host channels).1.bare ∧
      (p.runFor turns host channels).2 = (q.runFor turns host channels).2 :=
  Prod.mk.inj ((runFor_bare turns host p channels).symm.trans
    ((congrArg (·.runFor turns host channels) same).trans (runFor_bare turns host q channels)))

/-- Programs that differ in their places have the same module text, or are refused for the same
construct. -/
theorem view_lower_eq {p q : Program} (same : p.bare = q.bare) :
    p.lower.view UnsupportedError.construct Llvm.Module.text =
      q.lower.view UnsupportedError.construct Llvm.Module.text := by
  have seen (p : Program) : p.lower.view UnsupportedError.construct Llvm.Module.text =
      p.bare.lower.view UnsupportedError.construct Llvm.Module.text := by
    rw [lower_bare, Except.view_mapError]
    rfl
  rw [seen, same, ← seen]

end Program

/-- Two sources that nothing but the places in errors tells apart. -/
structure Text.IsAlike (a b : Text) : Prop where
  /-- Both are programs, the same up to places, or neither is, for the same reason. -/
  compiled : (Program.ofSource a).view (·.diagnostic.bare) Program.bare =
    (Program.ofSource b).view (·.diagnostic.bare) Program.bare
  /-- The same happens at the channels, and the same store and the same fault are left. -/
  runs {p q : Program} : Program.ofSource a = .ok p → Program.ofSource b = .ok q →
    ∀ turns host channels,
      (p.runFor turns host channels).1.bare = (q.runFor turns host channels).1.bare ∧
        (p.runFor turns host channels).2 = (q.runFor turns host channels).2
  /-- The modules have the same text, or the same construct is refused. -/
  modules {p q : Program} : Program.ofSource a = .ok p → Program.ofSource b = .ok q →
    p.lower.view UnsupportedError.construct Llvm.Module.text =
      q.lower.view UnsupportedError.construct Llvm.Module.text

variable {a b : Text} {ts us : List Token}

/-- Sources whose tokens say the same are the same program or have the same error, up to places. -/
theorem Program.view_ofSource_eq (first : scan a = .ok ts) (second : scan b = .ok us)
    (same : ts.map Token.spelling = us.map Token.spelling) :
    (ofSource a).view (·.diagnostic.bare) Program.bare =
      (ofSource b).view (·.diagnostic.bare) Program.bare := by
  have parsed := view_ofTokens_eq (Token.map_bare_of_spelling same)
  rw [ofSource, ofSource, first, second]
  dsimp only
  rw [Except.view_mapError, Except.view_mapError]
  -- The diagnostic without its place is that of the error without its place.
  exact Except.view_comp_congr parsed ParseError.diagnostic

/-- Layout does not matter: what stands between the tokens of a source decides nothing but where an
error is reported. -/
theorem Text.isAlike_of_scan (first : scan a = .ok ts) (second : scan b = .ok us)
    (same : ts.map Token.spelling = us.map Token.spelling) : a.IsAlike b := by
  have compiled := Program.view_ofSource_eq first second same
  have bare {p q : Program} (hp : Program.ofSource a = .ok p) (hq : Program.ofSource b = .ok q) :
      p.bare = q.bare := by
    rw [hp, hq] at compiled
    exact Except.ok.inj compiled
  exact ⟨compiled, fun hp hq => Program.runFor_alike (bare hp hq),
    fun hp hq => Program.view_lower_eq (bare hp hq)⟩

namespace Text

/-- The tokens of two sources, found by computation. -/
theorem exists_scans {P : List Token → List Token → Prop} [∀ ts us, Decidable (P ts us)]
    (h : (scan a).toOption.any (fun ts => (scan b).toOption.any fun us => decide (P ts us)) =
      true) : ∃ ts us, scan a = .ok ts ∧ scan b = .ok us ∧ P ts us := by
  obtain ⟨ts, first, h⟩ := (Option.any_eq_true _ _).1 h
  obtain ⟨us, second, h⟩ := (Option.any_eq_true _ _).1 h
  exact ⟨ts, us, Except.toOption_eq_some.1 first, Except.toOption_eq_some.1 second,
    of_decide_eq_true h⟩

/-- A source with a line for each statement and a remark. -/
def spaced : Text :=
  "algoritmo p
  a <- 6 // remark
  escribir a, a / 0
finalgoritmo
"

/-- The tokens of `spaced` on one line. -/
def dense : Text := "algoritmo p a<-6 escribir a,a/0 finalgoritmo"

/-- A program that fails in its last statement, in two layouts. -/
theorem isAlike_spaced_dense :
    ∃ ts us, scan spaced = .ok ts ∧ scan dense = .ok us ∧
      ts.map Token.spelling = us.map Token.spelling ∧ ts ≠ us ∧ spaced.IsAlike dense := by
  obtain ⟨ts, us, first, second, same, moved⟩ :
      ∃ ts us, scan spaced = .ok ts ∧ scan dense = .ok us ∧
        ts.map Token.spelling = us.map Token.spelling ∧ ts ≠ us :=
    exists_scans (by decide +kernel)
  exact ⟨ts, us, first, second, same, moved, isAlike_of_scan first second same⟩

end Text

end Pseudocode

import Pseudocode.Proofs.Llvm.Correctness

/-!
# The rounds of a program and of its module

A run keeps the counter of a loop apart from the variable of the loop. The module of the program
counts in the slot of the variable, and so leaves another number there. A program that reads current
values does not see this: each round of its loops begins in the module as it does in the run, with
the same number in the variable, and what is printed is what the run shows.
-/

namespace Pseudocode.Program

open Llvm Draft

variable {p : Program} {turns : Nat} {host : Host} {channels : Channels}

/-- Where there is no sign, every expression of a program that was read is of the kind whose code
computes its value. -/
theorem isPlain_of_ofSource {src : Text} (compiled : ofSource src = .ok p)
    (noSign : ∀ e ∈ p.expressions, ¬ e.IsUnary) :
    ∀ s ∈ partsOfBlock p.body, ∀ e ∈ s.operands, e.IsPlain := by
  intro s hs e he a ha
  have mem : a ∈ p.expressions := List.mem_flatMap.2 ⟨s, hs, s.mem_expressions he ha⟩
  exact ⟨isGrammatical_of_ofSource compiled a mem, noSign a mem⟩

/-- A program and the draft of its module, found by computation. -/
theorem exists_draft {src : Text} {P : Program → Draft → Prop} [∀ p F, Decidable (P p F)]
    (h : (ofSource src).toOption.any (fun p =>
      match lowerBlock p.body .initial with
      | (.ok _, F) => decide (P p F)
      | (.error _, _) => false) = true) :
    ∃ p F, ofSource src = .ok p ∧ lowerBlock p.body .initial = (.ok (), F) ∧ P p F := by
  cases compiled : ofSource src with
  | error =>
    rw [compiled] at h
    cases h
  | ok p =>
    replace h : (match lowerBlock p.body .initial with
      | (.ok _, F) => decide (P p F)
      | (.error _, _) => false) = true := by simpa [compiled, Except.toOption] using h
    split at h
    · next F body => exact ⟨p, F, rfl, body, of_decide_eq_true h⟩
    · cases h

theorem lower_of_lowerBlock {F : Draft} (h : lowerBlock p.body .initial = (.ok (), F)) :
    p.lower = .ok F.toModule := by
  rw [lower, h]

/-- The loops of a module count as those of the program do. Where a program without a sign that
reads current values comes to its end, and has not compared values of two kinds, its module returns
in one frame after entering certain blocks. Among these the bodies of loops with counters are those
of the rounds of the run, one for one and in order, and each is entered while the slot of the
variable holds the counter of the round. What is printed is what the program has shown, after the
loops too. -/
theorem lower_counts {src : Text} {m : Llvm.Module} (compiled : ofSource src = .ok p)
    (noSign : ∀ e ∈ p.expressions, ¬ e.IsUnary) (current : p.readsCurrent = true)
    (lowered : p.lower = .ok m) (ended : (p.runFor turns host channels).1.halt = none)
    (kinds : SameKinds (Trace.comparisons (p.trace turns host channels))) :
    ∃ entered f, (∀ entered' f', m.ReturnsAfter entered' f' ↔ entered' = entered ∧ f' = f) ∧
      Begins entered (p.rounds turns host channels) ∧
      Trace.outputs? (p.trace turns host channels) = some f.printed ∧
      (p.runFor turns host channels).1.output = Trace.lines (p.trace turns host channels) := by
  obtain ⟨F, body, rfl⟩ := lower_eq_ok lowered
  obtain ⟨m', ran, log⟩ := execBlock_of_runFor ended
  have grows := grows_lowerBlock body
  have fresh := grows.fresh fresh_initial
  -- The entry block, then the code of the statements, then the return.
  obtain ⟨c, c₁, f, entered, start, atStart, enters, begins, unprinted, allocated⟩ :=
    passes_initial fresh grows.extend
  have tracks : Tracks F ⟨.empty, 0, #[], channels⟩ f [] :=
    tracks_initial unprinted allocated
  have simulated : BlockSimulated F host turns [] p.body :=
    simulated_block fresh host turns (isPlain_of_ofSource compiled noSign) current
  obtain ⟨f', ⟨c₂, c₃, entered', atStart', atEnd, passes, begins'⟩, _, tracks'⟩ :=
    simulated body (.refl F) ran kinds trivial tracks
  cases atStart.unique atStart'
  cases atEnd.unique (at_last fresh)
  have returns : F.toModule.ReturnsAfter (entered ++ (entered' ++ [])) f' :=
    ⟨c, start, enters.trans (passes.trans (.single rfl))⟩
  rw [List.append_nil] at returns
  refine ⟨entered ++ entered', f', fun _ _ => ⟨returns.unique, ?_⟩, begins.append begins',
    tracks'.printed, ?_⟩
  · rintro ⟨rfl, rfl⟩
    exact returns
  · rw [Report.output, log]
    exact tracks'.written

/-- One loop in another. The variable of the outer loop is written after it has a new value. -/
def products : Text :=
  "algoritmo p
  total <- 0
  para i <- 1 hasta 2 hacer
    para j <- 1 hasta 3 con paso 2 hacer
      total <- i * j + total
    finpara
    escribir i, total
  finpara
  i <- total
  escribir i
finalgoritmo"

theorem lower_counts_products :
    ∃ p m entered f, ofSource products = .ok p ∧ p.lower = .ok m ∧ m.ReturnsAfter entered f ∧
      Begins entered [⟨.numbered .forBody 2, "i", 1⟩, ⟨.numbered .forBody 5, "j", 1⟩,
        ⟨.numbered .forBody 5, "j", 3⟩, ⟨.numbered .forBody 2, "i", 2⟩,
        ⟨.numbered .forBody 5, "j", 1⟩, ⟨.numbered .forBody 5, "j", 3⟩] ∧
      f.printed = [.number 1, .number 4, .newline, .number 2, .number 12, .newline, .number 12,
        .newline] := by
  obtain ⟨p, F, compiled, body, noSign, current, ended, kinds, rounds, shown⟩ :
      ∃ p F, ofSource products = .ok p ∧ lowerBlock p.body .initial = (.ok (), F) ∧
        (∀ e ∈ p.expressions, ¬ e.IsUnary) ∧ p.readsCurrent = true ∧
        (p.runFor 3 {} (.initial {} (.lines []))).1.halt = none ∧
        SameKinds (Trace.comparisons (p.trace 3 {} (.initial {} (.lines [])))) ∧
        p.rounds 3 {} (.initial {} (.lines [])) =
          [⟨.numbered .forBody 2, "i", 1⟩, ⟨.numbered .forBody 5, "j", 1⟩,
            ⟨.numbered .forBody 5, "j", 3⟩, ⟨.numbered .forBody 2, "i", 2⟩,
            ⟨.numbered .forBody 5, "j", 1⟩, ⟨.numbered .forBody 5, "j", 3⟩] ∧
        Trace.outputs? (p.trace 3 {} (.initial {} (.lines []))) =
          some [.number 1, .number 4, .newline, .number 2, .number 12, .newline, .number 12,
            .newline] :=
    exists_draft (by decide +kernel)
  have lowered := lower_of_lowerBlock body
  obtain ⟨entered, f, returns, begins, printed, _⟩ :=
    lower_counts compiled noSign current lowered ended kinds
  exact ⟨p, _, entered, f, compiled, lowered, (returns entered f).2 ⟨rfl, rfl⟩, rounds ▸ begins,
    Option.some.inj (printed.symm.trans shown)⟩

/-- What a loop has left in its variable is written. -/
def leftover : Text :=
  "algoritmo p
  para i <- 1 hasta 3 hacer
    escribir i
  finpara
  escribir i
finalgoritmo"

/-- After a loop the run has the last counter in the variable, and the module the next one. -/
theorem not_lower_counts_leftover :
    ∃ p m f, ofSource leftover = .ok p ∧ p.lower = .ok m ∧
      (∀ e ∈ p.expressions, ¬ e.IsUnary) ∧
      (p.runFor 4 {} (.initial {} (.lines []))).1.halt = none ∧
      SameKinds (Trace.comparisons (p.trace 4 {} (.initial {} (.lines [])))) ∧
      Trace.outputs? (p.trace 4 {} (.initial {} (.lines []))) =
        some [.number 1, .newline, .number 2, .newline, .number 3, .newline, .number 3, .newline] ∧
      (∀ f', m.Returns f' ↔ f' = f) ∧
      f.printed =
        [.number 1, .newline, .number 2, .newline, .number 3, .newline, .number 4, .newline] := by
  obtain ⟨p, F, compiled, body, noSign, ended, kinds, shown, executed⟩ :
      ∃ p F, ofSource leftover = .ok p ∧ lowerBlock p.body .initial = (.ok (), F) ∧
        (∀ e ∈ p.expressions, ¬ e.IsUnary) ∧
        (p.runFor 4 {} (.initial {} (.lines []))).1.halt = none ∧
        SameKinds (Trace.comparisons (p.trace 4 {} (.initial {} (.lines [])))) ∧
        Trace.outputs? (p.trace 4 {} (.initial {} (.lines []))) = some [.number 1, .newline,
          .number 2, .newline, .number 3, .newline, .number 3, .newline] ∧
        (F.unsorted.execute 60 ⟨F.entry.begin, {}⟩).map (·.printed) = some [.number 1, .newline,
          .number 2, .newline, .number 3, .newline, .number 4, .newline] :=
    exists_draft (by decide +kernel)
  obtain ⟨f, ran, printed⟩ := Option.map_eq_some_iff.1 executed
  have found := fun l b => block?_of_unsorted (l := l) (b := b)
    ((grows_lowerBlock body).fresh fresh_initial)
  have returns : F.toModule.Returns f :=
    ⟨_, rfl, (Module.reaches_of_execute ran).of_blocks found⟩
  exact ⟨p, _, f, compiled, lower_of_lowerBlock body, noSign, ended, kinds, shown,
    fun _ => ⟨returns.unique, fun same => same ▸ returns⟩, printed⟩

end Pseudocode.Program

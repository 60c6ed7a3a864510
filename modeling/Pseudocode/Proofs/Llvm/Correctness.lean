import Pseudocode.Proofs.Llvm.Simulation
import Pseudocode.Proofs.Run.Turns

/-!
# A program and its module

The module of a program begins with the block that makes the slots, goes on as the code of the
statements does, and returns at the end of the block that was written last.
-/

namespace Pseudocode

open Llvm Draft

namespace Llvm

/-- The code of the entry makes every slot, with a number in it. -/
theorem execCode_slots (slots : List Text) (f : Frame) :
    ∃ f', execCode (slots.flatMap fun x => [.allocate x, .store (.constant 0) x]) f = some f' ∧
      f'.printed = f.printed ∧ ∀ x, (f.slots x).isSome ∨ x ∈ slots → (f'.slots x).isSome := by
  induction slots generalizing f with
  | nil => exact ⟨f, rfl, rfl, fun x hx => hx.resolve_right List.not_mem_nil⟩
  | cons slot rest ih =>
    obtain ⟨f', ran, printed, allocated⟩ := ih ((f.setSlot slot none).setSlot slot (some 0))
    have first : execCode [.allocate slot, .store (.constant 0) slot] f =
        some ((f.setSlot slot none).setSlot slot (some 0)) := by
      simp [execCode, Instr.exec, Frame.double?, Frame.setSlot]
    refine ⟨f', execCode_append first ran, printed, fun x hx => allocated x ?_⟩
    by_cases same : x = slot
    · exact .inl (by simp [Frame.setSlot, same])
    · rcases hx with hx | hx
      · exact .inl (by simpa [Frame.setSlot, same] using hx)
      · exact .inr ((List.mem_cons.1 hx).resolve_left same)

namespace Draft

variable {F : Draft}

/-- Execution comes from its first moment to the beginning of the first statement, and begins no
round before it. -/
theorem passes_initial (fresh : Fresh [] F) (extend : initial.Extends F) :
    ∃ c c' f entered, F.toModule.start? = some c ∧ At F initial c' ∧
      F.toModule.Passes c entered ⟨c', f⟩ ∧ Begins entered [] ∧ f.printed = [] ∧
      ∀ x ∈ F.slots, (f.slots x).isSome := by
  obtain ⟨b, found, begins⟩ := exists_begin fresh extend rfl
  obtain ⟨f, ran, printed, allocated⟩ := execCode_slots F.slots {}
  have made : F.toModule.Passes ⟨F.entry.begin, {}⟩ [] ⟨.running [] (.jump .start), f⟩ := by
    simpa [entry, Block.begin] using Module.Passes.of_execCode ran [] (.jump .start)
  have jumps : F.toModule.step ⟨.running [] (.jump .start), f⟩ = some ⟨b.begin, f⟩ := by
    have found : F.toModule.block? .start = some b := found
    simp [Module.step, found]
  refine ⟨_, _, f, _, rfl, begins, made.trans (.single jumps), .other rfl f, printed, ?_⟩
  exact fun x hx => allocated x (.inr hx)

theorem reaches_initial (fresh : Fresh [] F) (extend : initial.Extends F) :
    ∃ c c' f, F.toModule.start? = some c ∧ At F initial c' ∧ F.toModule.Reaches c ⟨c', f⟩ ∧
      f.printed = [] ∧ ∀ x ∈ F.slots, (f.slots x).isSome := by
  obtain ⟨c, c', f, _, start, begins, passes, _, made⟩ := passes_initial fresh extend
  exact ⟨c, c', f, start, begins, passes.reaches, made⟩

/-- The block that was written last returns. -/
theorem at_last (fresh : Fresh [] F) : At F F (.running [] .ret) := by
  have found := block?_toModule fresh (List.mem_append_right _ (List.mem_singleton_self F.last))
  exact ⟨[], .ret, by simpa [last] using found, rfl⟩

/-- A frame in which nothing was printed and every slot is there tracks a run that starts. -/
theorem tracks_initial {f : Frame} {channels : Channels} (unprinted : f.printed = [])
    (allocated : ∀ x ∈ F.slots, (f.slots x).isSome) :
    Tracks F ⟨.empty, 0, #[], channels⟩ f [] := by
  refine ⟨fun name v _ found => ?_, allocated, congrArg some unprinted.symm, rfl⟩
  cases found

end Draft

end Llvm

namespace Program

variable {p : Program} {turns : Nat} {host : Host} {channels : Channels}

theorem lower_eq_ok {m : Llvm.Module} (h : p.lower = .ok m) :
    ∃ F, lowerBlock p.body .initial = (.ok (), F) ∧ m = F.toModule := by
  rw [lower] at h
  split at h
  · next F lowered =>
    cases h
    exact ⟨F, lowered, rfl⟩
  · cases h

/-- A run without an error is an execution of the whole body. -/
theorem execBlock_of_runFor (h : (p.runFor turns host channels).1.halt = none) :
    ∃ m, execBlock host turns p.body ⟨.empty, 0, #[], channels⟩ = (.ok (), m) ∧
      (p.runFor turns host channels).1.log = m.log := by
  rw [runFor_eq] at h ⊢
  rcases ran : execBlock host turns p.body ⟨.empty, 0, #[], channels⟩ with ⟨halt | _, m⟩
  · rw [ran] at h
    cases h
  · exact ⟨m, rfl, rfl⟩

/-- The module of a program does what the program does. Where a program without a loop with a
counter and without a sign comes to its end, and has not compared values of two kinds, its module
returns in one frame. The calls of the printing routine there are those for the values that the
program has shown: a text for a text, a number for a number, one or zero for a truth value, and the
end of each line. The lines of the report are made from these values. -/
theorem lower_correct {src : Text} {m : Llvm.Module} (compiled : ofSource src = .ok p)
    (noFor : ∀ s ∈ p.statements, ¬ s.IsFor) (noSign : ∀ e ∈ p.expressions, ¬ e.IsUnary)
    (lowered : p.lower = .ok m) (ended : (p.runFor turns host channels).1.halt = none)
    (kinds : SameKinds (Trace.comparisons (p.trace turns host channels))) :
    ∃ f, (∀ f', m.Returns f' ↔ f' = f) ∧
      Trace.outputs? (p.trace turns host channels) = some f.printed ∧
      (p.runFor turns host channels).1.output = Trace.lines (p.trace turns host channels) := by
  obtain ⟨F, body, rfl⟩ := lower_eq_ok lowered
  obtain ⟨m', ran, log⟩ := execBlock_of_runFor ended
  have grows := grows_lowerBlock body
  have fresh := grows.fresh fresh_initial
  have plain : ∀ s ∈ partsOfBlock p.body, s.IsPlain := by
    intro s hs
    refine ⟨noFor s hs, fun e he a ha => ?_⟩
    have own : a ∈ s.expressions := by
      rw [Stmt.expressions, partsOfAll_eq]
      exact List.mem_flatMap.2 ⟨e, he, ha⟩
    have mem : a ∈ p.expressions := List.mem_flatMap.2 ⟨s, hs, own⟩
    exact ⟨isGrammatical_of_ofSource compiled a mem, noSign a mem⟩
  -- The entry block, then the code of the statements, then the return.
  obtain ⟨c, c₁, f, start, atStart, enters, unprinted, allocated⟩ :=
    reaches_initial fresh grows.extend
  have tracks : Tracks F ⟨.empty, 0, #[], channels⟩ f [] :=
    tracks_initial unprinted allocated
  obtain ⟨f', ⟨c₂, c₃, atStart', atEnd, runs⟩, _, tracks'⟩ :=
    blockSimulated fresh host turns plain body (.refl F) ran kinds trivial tracks
  cases atStart.unique atStart'
  cases atEnd.unique (at_last fresh)
  have returns : F.toModule.Returns f' := ⟨c, start, enters.trans (runs.trans (.single rfl))⟩
  refine ⟨f', fun f'' => ⟨returns.unique, fun same => same ▸ returns⟩, tracks'.printed, ?_⟩
  rw [Report.output, log]
  exact tracks'.written

/-- Two turns of a loop. In the first a case is chosen, and in the second none. -/
def countdown : Text :=
  "algoritmo p
  n <- 2
  repetir
    segun n hacer
      caso 2: escribir \"dos\"
      de otro modo: escribir n, n = 1
    finsegun
    n <- n - 1
  hasta que n < 1
finalgoritmo"

theorem lower_correct_countdown :
    ∃ p m f, ofSource countdown = .ok p ∧ p.lower = .ok m ∧ m.Returns f ∧
      f.printed = [.string "dos", .newline, .number 1, .number 1, .newline] := by
  have checked : (ofSource countdown).toOption.any (fun p =>
      decide ((∀ s ∈ p.statements, ¬ s.IsFor) ∧ (∀ e ∈ p.expressions, ¬ e.IsUnary) ∧
        p.lower.isOk = true ∧ (p.runFor 2 {} (.initial {} (.lines []))).1.halt = none ∧
        SameKinds (Trace.comparisons (p.trace 2 {} (.initial {} (.lines [])))) ∧
        Trace.outputs? (p.trace 2 {} (.initial {} (.lines []))) =
          some [.string "dos", .newline, .number 1, .number 1, .newline])) = true := by
    decide +kernel
  cases compiled : ofSource countdown with
  | error =>
    rw [compiled] at checked
    cases checked
  | ok p =>
    rw [compiled] at checked
    obtain ⟨noFor, noSign, isOk, ended, kinds, shown⟩ := of_decide_eq_true checked
    cases lowered : p.lower with
    | error =>
      rw [lowered] at isOk
      cases isOk
    | ok m =>
      obtain ⟨f, returns, printed, _⟩ := lower_correct compiled noFor noSign lowered ended kinds
      exact ⟨p, m, f, rfl, lowered, (returns f).2 rfl, Option.some.inj (printed.symm.trans shown)⟩

end Program

end Pseudocode

import Pseudocode.Proofs.Outcome
import Pseudocode.Run.Exec

/-!
# What an effect that succeeded has done

One inversion for each effect of a statement: the state it leaves, where it does not fail.
-/

namespace Pseudocode

namespace Variables

theorem lookup_cons_eq (name : Text) (v : Value) (rest : List (Text × Value)) (x : Text) :
    ((name, v) :: rest).lookup x = if x = name then some v else rest.lookup x := by
  by_cases h : x = name
  · simp [h]
  · have differs : (x == name) = false := beq_eq_false_iff_ne.2 h
    simp [List.lookup_cons, differs, h]

theorem lookup_insertInto (name : Text) (v : Value) (entries : List (Text × Value)) (x : Text) :
    (insertInto name v entries).lookup x = if x = name then some v else entries.lookup x := by
  induction entries with
  | nil => rw [insertInto, lookup_cons_eq]
  | cons head rest ih =>
    obtain ⟨n, w⟩ := head
    simp only [insertInto]
    split
    · next same =>
      subst same
      rw [lookup_cons_eq, lookup_cons_eq]
      split
      · rfl
      · rfl
    · next differs =>
      split
      · rw [lookup_cons_eq]
      · rw [lookup_cons_eq, lookup_cons_eq, ih]
        by_cases first : x = n
        · have later : x ≠ name := fun h => differs (h.symm.trans first)
          rw [if_pos first, if_neg later, if_pos first]
        · rw [if_neg first, if_neg first]

/-- A name that was bound has its new value, and any other name the value it had. -/
theorem find?_insert (vs : Variables) (name : Text) (v : Value) (x : Text) :
    (vs.insert name v).find? x = if x = name then some v else vs.find? x :=
  lookup_insertInto name v vs.entries x

end Variables

theorem Eval.located_eq_ok {α : Type} {loc : Option Location} {r : Except Fault α} {n n' : Nat}
    {a : α} (h : Eval.located loc r n = (.ok a, n')) : r = .ok a ∧ n' = n := by
  obtain ⟨ran, rfl⟩ := Prod.mk.inj h
  exact ⟨Except.mapError_eq_ok.1 ran, rfl⟩

namespace Run

variable {host : Host} {loc : Option Location} {m m' : Machine}

theorem checkpoint_eq_ok (h : checkpoint host loc m = (.ok (), m')) :
    m' = { m with steps := m.steps + 1 } := by
  simp only [checkpoint] at h
  split at h
  · cases h
  · split at h
    · cases h
    · cases h
      rfl

theorem evaluating_eq_ok {α : Type} {x : Store → Eval α} {a : α}
    (h : evaluating x m = (.ok a, m')) :
    ∃ drawn, x m.store m.channels.drawn = (.ok a, drawn) ∧
      m' = { m with channels.drawn := drawn } := by
  simp only [evaluating] at h
  split at h
  · rename_i b drawn hx
    cases h
    exact ⟨drawn, hx, rfl⟩
  · cases h

theorem bindVariable_eq_ok {name : Text} {v : Value}
    (h : bindVariable loc name v m = (.ok (), m')) :
    m' = { m with store.bindings := m.store.bindings.insert name v } := by
  simp only [bindVariable, Store.set?] at h
  cases hc : (constant? name).isSome with
  | true =>
    simp only [hc, if_true] at h
    cases h
  | false =>
    simp only [hc, Bool.false_eq_true, if_false] at h
    cases h
    rfl

theorem writeLine_eq_ok {line : Text} (h : writeLine host loc line m = (.ok (), m')) :
    m'.store = m.store ∧ m'.log = m.log.push (.line line) := by
  simp only [writeLine] at h
  split at h
  · cases h
  · cases h
    exact ⟨rfl, rfl⟩

end Run

end Pseudocode

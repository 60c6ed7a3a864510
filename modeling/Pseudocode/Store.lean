import Pseudocode.Program.Basic
import Pseudocode.Value.Basic

/-!
# The store of a run

There is one flat set of variables, kept in the order of the bytes of their names. The predefined
constants are not among them: they have a value everywhere and cannot be bound. The arrays are kept
beside the variables.
-/

namespace Pseudocode

namespace Text

/-- Of two different texts one comes first. -/
theorem lt_of_not_lt_of_ne {a b : Text} (hlt : ¬ a < b) (hne : a ≠ b) : b < a := by
  have hle : b.bytes ≤ a.bytes := hlt
  rcases List.le_iff_lt_or_eq.1 hle with h | h
  · exact h
  · exact absurd (Text.ext h.symm) hne

theorem lt_trans {a b c : Text} (hab : a < b) (hbc : b < c) : a < c := by
  have h : a.bytes < b.bytes := hab
  exact List.lt_trans h hbc

end Text

/-- Variables and their values, in strictly ascending order of their names. -/
structure Variables where
  entries : List (Text × Value)
  sorted : entries.Pairwise fun a b => a.1 < b.1

namespace Variables

/-- No variables. -/
def empty : Variables := ⟨[], .nil⟩

/-- The value of a variable. -/
def find? (vs : Variables) (name : Text) : Option Value := vs.entries.lookup name

/-- The names of the variables. -/
def names (vs : Variables) : List Text := vs.entries.map (·.1)

/-- Entries with a name bound to a value, where the order of the names wants it. -/
def insertInto (name : Text) (v : Value) : List (Text × Value) → List (Text × Value)
  | [] => [(name, v)]
  | (n, w) :: rest =>
    if name = n then (name, v) :: rest
    else if name < n then (name, v) :: (n, w) :: rest
    else (n, w) :: insertInto name v rest

theorem mem_insertInto {name : Text} {v : Value} {entries : List (Text × Value)} {e : Text × Value}
    (h : e ∈ insertInto name v entries) : e = (name, v) ∨ e ∈ entries := by
  induction entries with
  | nil => simpa [insertInto] using h
  | cons head rest ih =>
    obtain ⟨n, w⟩ := head
    simp only [insertInto] at h
    split at h
    · rcases List.mem_cons.1 h with h | h <;> simp [h]
    · split at h
      · rcases List.mem_cons.1 h with h | h <;> simp_all
      · rcases List.mem_cons.1 h with h | h
        · simp [h]
        · rcases ih h with h | h <;> simp [h]

theorem sorted_insertInto (name : Text) (v : Value) {entries : List (Text × Value)}
    (h : entries.Pairwise fun a b => a.1 < b.1) :
    (insertInto name v entries).Pairwise fun a b => a.1 < b.1 := by
  induction entries with
  | nil => simp [insertInto]
  | cons head rest ih =>
    obtain ⟨n, w⟩ := head
    obtain ⟨hhead, hrest⟩ := List.pairwise_cons.1 h
    simp only [insertInto]
    split
    · next heq => subst heq; exact List.pairwise_cons.2 ⟨hhead, hrest⟩
    · next hne =>
      split
      · next hlt =>
        refine List.pairwise_cons.2 ⟨?_, h⟩
        intro e he
        rcases List.mem_cons.1 he with rfl | he
        · exact hlt
        · exact Text.lt_trans hlt (hhead e he)
      · next hlt =>
        refine List.pairwise_cons.2 ⟨?_, ih hrest⟩
        intro e he
        rcases mem_insertInto he with rfl | he
        · exact Text.lt_of_not_lt_of_ne hlt hne
        · exact hhead e he

/-- Bind a name to a value. -/
def insert (vs : Variables) (name : Text) (v : Value) : Variables :=
  ⟨insertInto name v vs.entries, sorted_insertInto name v vs.sorted⟩

end Variables

/-- The variables and arrays of a run. -/
structure Store where
  bindings : Variables
  arrays : Arrays

namespace Store

/-- Nothing is bound and there are no arrays. -/
def empty : Store := ⟨.empty, .empty⟩

/-- The value of a name, constants included. -/
def get? (s : Store) (name : Text) : Option Value :=
  match constant? name with
  | some n => some (.number n)
  | none => s.bindings.find? name

/-- Whether a name has a value. -/
def has (s : Store) (name : Text) : Bool := (s.get? name).isSome

/-- Bind a name, unless it is that of a constant. -/
def set? (s : Store) (name : Text) (v : Value) : Option Store :=
  if (constant? name).isSome then none else some { s with bindings := s.bindings.insert name v }

/-- A value as text. -/
def textOf (s : Store) (v : Value) : Text := v.toText s.arrays

end Store

end Pseudocode

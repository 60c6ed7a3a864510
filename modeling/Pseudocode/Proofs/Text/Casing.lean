import Pseudocode.Proofs.Text.Ascii

/-!
# Lower-casing and folding

Two texts that become the same small ASCII letters in lower case also fold together, unless one of
them has the dotted capital `İ`. This is the only character that is lower-cased to an ASCII letter
and yet folds with none. The sign for the kelvin is lower-cased to `k`, and folds with it.
-/

namespace Pseudocode

/-- A letter without an accent, in lower case. -/
def IsSmall (c : Char) : Prop := 97 ≤ c.toNat ∧ c.toNat ≤ 122

instance (c : Char) : Decidable (IsSmall c) :=
  inferInstanceAs (Decidable (97 ≤ c.toNat ∧ c.toNat ≤ 122))

/-- Three runs lead to small letters. -/
private theorem lowering_to_small : ∀ r ∈ lowering.runs, r.target ≤ 122 →
    r = ⟨0x41, 0x5A, 1, 0x61⟩ ∨ r = ⟨0x130, 0x130, 1, 0x69⟩ ∨ r = ⟨0x212A, 0x212A, 1, 0x6B⟩ := by
  decide +kernel

private theorem toNat_of_ofNat {n : Nat} {d : Char} (small : IsSmall d) (h : Char.ofNat n = d) :
    n = d.toNat := by
  have range := small.1
  subst h
  by_cases valid : n.isValidChar
  · rw [Char.ofNat, dif_pos valid]
    rfl
  · rw [Char.ofNat, dif_neg valid] at range
    exact absurd range (by decide)

private theorem foldChar_capital :
    ∀ n ∈ List.range' 65 26, foldChar (Char.ofNat n) = foldChar (Char.ofNat (n + 32)) := by
  decide +kernel

private theorem foldChar_kelvin : foldChar (Char.ofNat 0x212A) = foldChar (Char.ofNat 0x6B) := by
  decide +kernel

theorem foldChar_dotted : foldChar 'İ' = 'İ' := by decide +kernel

/-- What is lower-cased to a small letter folds with it, except for the dotted capital. -/
theorem foldChar_of_lowerChar {c d : Char} (small : IsSmall d) (h : lowerChar c = d) :
    c = 'İ' ∨ foldChar c = foldChar d := by
  have char : c = Char.ofNat c.toNat := (Char.ofNat_toNat c).symm
  have char' : d = Char.ofNat d.toNat := (Char.ofNat_toNat d).symm
  unfold lowerChar CharMap.apply at h
  split at h
  · next r found =>
    obtain ⟨mem, covers⟩ := CharMap.run?_eq_some_iff.1 found
    rw [CharRun.covers_iff] at covers
    have moved := toNat_of_ofNat small h
    obtain ⟨-, most⟩ := small
    rcases lowering_to_small r mem (by omega) with rfl | rfl | rfl
    · dsimp only at covers moved
      have capital := foldChar_capital c.toNat (by rw [List.mem_range'_1]; omega)
      have code : c.toNat + 32 = d.toNat := by omega
      right
      rw [char, char', capital, code]
    · dsimp only at covers
      have code : c.toNat = 0x130 := by omega
      left
      rw [char, code]
    · dsimp only at covers moved
      have code : c.toNat = 0x212A := by omega
      have code' : d.toNat = 0x6B := by omega
      right
      rw [char, char', code, code', foldChar_kelvin]
  · exact .inr (congrArg foldChar h)

/-- Characters whose lower-case forms are small letters fold with these, unless one of them is the
dotted capital. -/
theorem map_foldChar_of_map_lowerChar {cs ds : List Char} (small : ∀ d ∈ ds, IsSmall d)
    (h : cs.map lowerChar = ds) (undotted : 'İ' ∉ cs) : cs.map foldChar = ds.map foldChar := by
  subst h
  rw [List.map_map]
  refine List.map_congr_left fun c hc => ?_
  have isSmall : IsSmall (lowerChar c) := small _ (List.mem_map_of_mem hc)
  rcases foldChar_of_lowerChar isSmall rfl with rfl | fold
  · exact absurd hc undotted
  · exact fold

end Pseudocode

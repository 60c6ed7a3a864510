import Pseudocode.Settings.Load

/-!
# Texts without references

References to environment variables start with a dollar sign, so a text without one is not changed
when references are replaced. Joining and cleaning paths only moves pieces of them about and puts
slashes and dots between them. So the places where settings are looked for, and the default place of
the history, have no dollar sign if the variables that they are made from have none.
-/

namespace Pseudocode

/-- A text without a dollar sign. -/
def Text.IsPlain (t : Text) : Prop := 36 ∉ t.bytes

instance (t : Text) : Decidable t.IsPlain := inferInstanceAs (Decidable (36 ∉ t.bytes))

namespace Environment

variable {env : Environment}

theorem expandAfter_of_not_mem {bytes : List UInt8} (plain : 36 ∉ bytes) :
    env.expandAfter 0 bytes = bytes := by
  induction bytes with
  | nil => rfl
  | cons b rest ih =>
    obtain ⟨other, plain⟩ := not_or.1 (mt List.mem_cons.2 plain)
    rw [expandAfter, if_neg fun dollar => other dollar.1.symm, ih plain]

/-- A text without a dollar sign refers to nothing. -/
theorem expand_of_isPlain {t : Text} (plain : t.IsPlain) : env.expand t = t :=
  Text.ext (expandAfter_of_not_mem plain)

end Environment

namespace Text

variable {t u : Text} {ts : List Text}

theorem IsPlain.append (plain : t.IsPlain) (plain' : u.IsPlain) : (t ++ u).IsPlain := by
  intro mem
  rcases List.mem_append.1 mem with mem | mem
  · exact plain mem
  · exact plain' mem

theorem isPlain_join {sep : Text} (plain : sep.IsPlain) (all : ∀ t ∈ ts, t.IsPlain) :
    (join sep ts).IsPlain := by
  induction ts with
  | nil => exact List.not_mem_nil
  | cons t ts ih =>
    obtain ⟨first, others⟩ := List.forall_mem_cons.1 all
    cases ts with
    | nil => exact first
    | cons u ts => exact (first.append plain).append (ih others)

/-- A piece between separators has only bytes that were there. -/
theorem mem_of_mem_splitBytes {sep b : UInt8} {bytes piece : List UInt8}
    (mem : piece ∈ splitBytes sep bytes) (mem' : b ∈ piece) : b ∈ bytes := by
  induction bytes generalizing piece with
  | nil =>
    obtain rfl := List.mem_singleton.1 mem
    exact mem'
  | cons a rest ih =>
    rw [splitBytes] at mem
    split at mem
    · rcases List.mem_cons.1 mem with rfl | mem
      · cases mem'
      · exact List.mem_cons_of_mem a (ih mem mem')
    · split at mem
      · obtain rfl := List.mem_singleton.1 mem
        exact List.mem_cons.2 (.inl (List.mem_singleton.1 mem'))
      · next pieces =>
        rcases List.mem_cons.1 mem with rfl | mem
        · rcases List.mem_cons.1 mem' with rfl | mem'
          · exact List.mem_cons_self
          · exact List.mem_cons_of_mem a (ih (by rw [pieces]; exact List.mem_cons_self) mem')
        · exact List.mem_cons_of_mem a (ih (by rw [pieces]; exact List.mem_cons_of_mem _ mem) mem')

theorem IsPlain.split (plain : t.IsPlain) (sep : UInt8) : ∀ piece ∈ t.split sep, piece.IsPlain := by
  intro piece mem
  obtain ⟨bytes, own, rfl⟩ := List.mem_map.1 mem
  exact fun dollar => plain (mem_of_mem_splitBytes own dollar)

end Text

namespace Path

variable {path : Text} {paths above : List Text}

theorem isPlain_addPiece {rooted : Bool} {piece : Text} (all : ∀ t ∈ above, t.IsPlain)
    (plain : piece.IsPlain) : ∀ t ∈ addPiece rooted above piece, t.IsPlain := by
  rw [addPiece.eq_def]
  split
  · exact all
  · split
    · split
      · split
        · exact fun t mem => absurd mem List.not_mem_nil
        · exact List.forall_mem_singleton.2 plain
      · split
        · exact List.forall_mem_cons.2 ⟨plain, all⟩
        · exact (List.forall_mem_cons.1 all).2
    · exact List.forall_mem_cons.2 ⟨plain, all⟩

theorem isPlain_foldl_addPiece {rooted : Bool} {pieces : List Text}
    (all : ∀ t ∈ above, t.IsPlain) (plain : ∀ t ∈ pieces, t.IsPlain) :
    ∀ t ∈ pieces.foldl (addPiece rooted) above, t.IsPlain := by
  induction pieces generalizing above with
  | nil => exact all
  | cons piece pieces ih =>
    obtain ⟨first, others⟩ := List.forall_mem_cons.1 plain
    exact ih (isPlain_addPiece all first) others

/-- Cleaning a path brings in no dollar sign. -/
theorem isPlain_clean (plain : path.IsPlain) : (clean path).IsPlain := by
  have kept :
      (Text.join "/" ((pieces path).foldl (addPiece (isAbsolute path)) []).reverse).IsPlain := by
    refine Text.isPlain_join (by decide) fun t mem => ?_
    exact isPlain_foldl_addPiece (fun t mem => absurd mem List.not_mem_nil) (plain.split slash) t
      (List.mem_reverse.1 mem)
  rw [clean]
  split
  · exact Text.IsPlain.append (by decide) kept
  · split
    · decide
    · exact kept

theorem isPlain_join (plain : ∀ t ∈ paths, t.IsPlain) : (join paths).IsPlain := by
  rw [join]
  split
  · decide
  · exact isPlain_clean (Text.isPlain_join (by decide) fun t mem =>
      plain t (List.dropWhile_subset _ mem))

end Path

namespace Settings

variable {env : Environment}

section Plain

variable (home : (env.get "HOME").IsPlain)
include home

theorem isPlain_defaultHistoryFile : (defaultHistoryFile env).IsPlain := by
  rw [defaultHistoryFile]
  split
  · decide
  · exact Path.isPlain_join (List.forall_mem_cons.2 ⟨home, List.forall_mem_singleton.2 (by decide)⟩)

theorem isPlain_of_configDirectory? (config : (env.get "XDG_CONFIG_HOME").IsPlain) {dir : Text}
    (found : env.configDirectory? = some dir) : dir.IsPlain := by
  rw [Environment.configDirectory?] at found
  split at found
  · split at found
    · cases found
    · cases found
      exact home.append (by decide)
  · split at found
    · cases found
      exact config
    · cases found

theorem isPlain_of_mem_defaultPaths (config : (env.get "XDG_CONFIG_HOME").IsPlain) {path : Text}
    (mem : path ∈ defaultPaths env) : path.IsPlain := by
  have here : Text.IsPlain "./algoritmo.toml" := by decide
  rw [defaultPaths] at mem
  split at mem
  · next dir found =>
    rcases List.mem_cons.1 mem with rfl | mem
    · exact here
    · obtain rfl := List.mem_singleton.1 mem
      have plain := isPlain_of_configDirectory? home config found
      refine Path.isPlain_join (List.forall_mem_cons.2 ⟨plain, ?_⟩)
      decide
  · obtain rfl := List.mem_singleton.1 mem
    exact here

end Plain

end Settings

end Pseudocode

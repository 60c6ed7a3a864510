import Pseudocode.Settings.Decoder
import Pseudocode.Settings.Setting

/-!
# Correct decoders

A settings file says something of a setting or leaves it out. A correct decoder sets what the file
says, leaves the other settings as they are, and names the keys that are no settings. Which document
a text spells is a matter of the language of the file, so it is a parameter, as the decoder is.

A document may have several entries for one setting, under names that differ in case. Which of them
counts is left to the decoder.
-/

namespace Pseudocode

namespace Settings

namespace Setting

/-- The nodes for a setting in a table that stands for its group. -/
def nodesIn (k : Setting) (entries : Toml.Table) : List Toml.Node :=
  (entries.filter fun e => k.name.sameFold e.1).map (·.2)

/-- The nodes for a setting under a name at the top of a document. -/
def nodesUnder (k : Setting) (name : Text) : Toml.Node → List Toml.Node
  | .table entries => if k.isIn name then k.nodesIn entries else []
  | _ => []

/-- The nodes for a setting in a document. A document that has none leaves the setting out. -/
def nodes (k : Setting) (root : Toml.Table) : List Toml.Node :=
  root.flatMap fun e => k.nodesUnder e.1 e.2

/-- Whether a setting may hold something. The level and the format of the log may be empty. -/
def allows : Setting → Held → Bool
  | maxSteps, .integer i => decide (0 ≤ i)
  | timeout, .duration d => decide (0 ≤ d.nanoseconds)
  | level, .text t => t.isEmpty || levels.contains t
  | format, .text t => t.isEmpty || formats.contains t
  | _, _ => true

theorem allows_held_empty (k : Setting) : k.allows (k.held {}) = true := by
  cases k with
  | _ => rfl

theorem mem_all (k : Setting) : k ∈ all := by
  cases k with
  | _ => decide

instance {p : Setting → Prop} [DecidablePred p] : Decidable (∀ k, p k) :=
  decidable_of_iff (∀ k ∈ all, p k) ⟨fun holds k => holds k k.mem_all, fun holds k _ => holds k⟩

end Setting

/-- A document that fits the settings: what has the name of a group is a table, and what is given
for a setting is of its kind. -/
structure IsReadable (doc : Toml.Document) : Prop where
  tables : ∀ e ∈ doc.root, Setting.isGroup e.1 = true → e.2.isTable = true
  kinds : ∀ (k : Setting), ∀ node ∈ k.nodes doc.root, (k.read? node).isSome = true

/-- A document that can be taken over as it is: all its keys are settings, and what is given for
them is allowed. -/
structure IsValid (doc : Toml.Document) : Prop extends IsReadable doc where
  known : ∀ key ∈ doc.keys, Setting.isKnown key = true
  allowed : ∀ (k : Setting), ∀ node ∈ k.nodes doc.root, ∀ held ∈ k.read? node, k.allows held = true

instance (doc : Toml.Document) : Decidable (IsReadable doc) :=
  decidable_of_iff ((∀ e ∈ doc.root, Setting.isGroup e.1 = true → e.2.isTable = true) ∧
      ∀ (k : Setting), ∀ node ∈ k.nodes doc.root, (k.read? node).isSome = true)
    ⟨fun both => ⟨both.1, both.2⟩, fun readable => ⟨readable.tables, readable.kinds⟩⟩

instance (doc : Toml.Document) : Decidable (IsValid doc) :=
  decidable_of_iff (IsReadable doc ∧ (∀ key ∈ doc.keys, Setting.isKnown key = true) ∧
      ∀ (k : Setting), ∀ node ∈ k.nodes doc.root, ∀ held ∈ k.read? node, k.allows held = true)
    ⟨fun all => ⟨all.1, all.2.1, all.2.2⟩,
      fun valid => ⟨valid.toIsReadable, valid.known, valid.allowed⟩⟩

/-- What a decoder is documented to do with the texts that spell documents. -/
structure Decoder.IsCorrect (d : Decoder) (spells : Text → Toml.Document → Prop) : Prop where
  /-- It can decode what fits the settings. -/
  accepts : ∀ {t doc}, spells t doc → IsReadable doc → ∃ s unknown, d.decode? t = some (s, unknown)
  /-- A setting that is in the document holds one of the values that are given for it. -/
  sets : ∀ {t doc s unknown}, spells t doc → d.decode? t = some (s, unknown) → ∀ k : Setting,
    k.nodes doc.root ≠ [] → ∃ node ∈ k.nodes doc.root, k.read? node = some (k.held s)
  /-- A setting that is not in the document is left as it is when nothing is set. -/
  leaves : ∀ {t doc s unknown}, spells t doc → d.decode? t = some (s, unknown) → ∀ k : Setting,
    k.nodes doc.root = [] → k.held s = k.held {}
  /-- The keys that are no settings are given, in the order of the text. -/
  unknown : ∀ {t doc s unknown}, spells t doc → d.decode? t = some (s, unknown) →
    unknown = doc.keys.filter fun key => !Setting.isKnown key

namespace Decoder.IsCorrect

variable {d : Decoder} {spells : Text → Toml.Document → Prop} {t : Text} {doc : Toml.Document}
  {s : Settings} {unknown : List Toml.Key}

/-- A valid document is decoded, and it has no unknown keys. -/
theorem exists_decode? (correct : d.IsCorrect spells) (spelt : spells t doc) (valid : IsValid doc) :
    ∃ s, d.decode? t = some (s, []) := by
  obtain ⟨s, unknown, decoded⟩ := correct.accepts spelt valid.toIsReadable
  have none : unknown = [] := by
    rw [correct.unknown spelt decoded, List.filter_eq_nil_iff]
    intro key mem
    rw [valid.known key mem]
    exact Bool.false_ne_true
  exact ⟨s, none ▸ decoded⟩

/-- What a valid document sets is allowed, and so is what it leaves out. -/
theorem allows_held (correct : d.IsCorrect spells) (spelt : spells t doc) (valid : IsValid doc)
    (decoded : d.decode? t = some (s, unknown)) (k : Setting) : k.allows (k.held s) = true := by
  by_cases missing : k.nodes doc.root = []
  · rw [correct.leaves spelt decoded k missing]
    exact k.allows_held_empty
  · obtain ⟨node, mem, read⟩ := correct.sets spelt decoded k missing
    exact valid.allowed k node mem _ read

end Decoder.IsCorrect

end Settings

end Pseudocode

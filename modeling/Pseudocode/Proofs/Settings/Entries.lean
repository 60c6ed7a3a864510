import Pseudocode.Proofs.Outcome
import Pseudocode.Proofs.Settings.Decoding
import Pseudocode.Settings.Load

/-!
# What TOML files say of a setting

Each entry of a group changes the setting whose name it has and no other one. So the settings that
are taken over from a document hold, for each of them, what the last entry for it says, and what
they held before if there is none. So the decoder for TOML is correct.
-/

namespace Pseudocode

namespace Settings

namespace Setting

variable {k k' : Setting} {node : Toml.Node} {h : Held} {s s' s'' : Settings} {g name : Text}

/-! ### One setting -/

/-- A setting can hold what a node says for it. -/
theorem held_put (read : k.read? node = some h) : k.held (k.put s h) = h := by
  rw [read?.eq_def] at read
  split at read
  case h_1 | h_2 =>
    cases read
    rfl
  case h_3 | h_4 =>
    obtain ⟨d, -, rfl⟩ := Option.map_eq_some_iff.1 read
    rfl
  case h_5 | h_6 | h_7 | h_8 | h_9 | h_10 =>
    cases read
    rfl
  case h_11 => cases read

/-- The settings apart from one. -/
def others (k : Setting) : List Setting := all.filter (· ≠ k)

theorem held_put_others (k : Setting) (s : Settings) (h : Held) :
    k.others.map (held (k.put s h)) = k.others.map (held s) := by
  cases k with
  | _ =>
    cases h with
    | _ => rfl

/-- Other settings are left as they are. -/
theorem held_put_of_ne (other : k' ≠ k) : held (k.put s h) k' = held s k' := by
  have mem : k' ∈ k.others := List.mem_filter.2 ⟨k'.mem_all, decide_eq_true other⟩
  exact List.map_inj_left.1 (held_put_others k s h) k' mem

/-! ### Names -/

theorem sameFold_of_sameFold {a b t : Text} (ha : a.sameFold t = true) (hb : b.sameFold t = true) :
    a.sameFold b = true := by
  rw [Text.sameFold, beq_iff_eq] at ha hb ⊢
  exact ha.trans hb.symm

/-- A name in a document stands for at most one setting. -/
theorem name_unique (hk : k.name.sameFold name = true) (hk' : k'.name.sameFold name = true) :
    k = k' := by
  have apart : ∀ k ∈ all, ∀ k' ∈ all, k.name.sameFold k'.name = true → k = k' := by
    decide +kernel
  exact apart k k.mem_all k' k'.mem_all (sameFold_of_sameFold hk hk')

theorem named?_eq_some_iff :
    named? g name = some k ↔ k.isIn g = true ∧ k.name.sameFold name = true := by
  rw [named?, List.find?_eq_some_iff_of_unique, Bool.and_eq_true]
  · exact and_iff_right k.mem_all
  · intro k _ k' _ own own'
    rw [Bool.and_eq_true] at own own'
    exact name_unique own.2 own'.2

theorem isGroup_of_isIn (own : k.isIn g = true) : isGroup g = true :=
  List.any_eq_true.2 ⟨k, k.mem_all, own⟩

/-! ### Entries one after another -/

/-- A setting holds what the last of some nodes says, or what it held before if there is none. -/
def Takes (k : Setting) (nodes : List Toml.Node) (s s' : Settings) : Prop :=
  match nodes.getLast? with
  | none => k.held s' = k.held s
  | some node => k.read? node = some (k.held s')

theorem Takes.append {first later : List Toml.Node} (ran : k.Takes first s s')
    (ran' : k.Takes later s' s'') : k.Takes (first ++ later) s s'' := by
  rw [Takes] at ran ran' ⊢
  rw [List.getLast?_append]
  cases last : later.getLast? with
  | none =>
    rw [last] at ran'
    rw [Option.none_or]
    exact ran' ▸ ran
  | some node =>
    rw [last] at ran'
    rwa [Option.some_or]

/-- What an entry of a group is taken over to. -/
theorem addGroup_cons {entries : Toml.Table} : addGroup g ((name, node) :: entries) s =
    ((named? g name).elim (some s) fun k => (k.read? node).map (k.put s)).bind
      (addGroup g entries) := by
  rw [addGroup]
  cases named? g name with
  | none => rfl
  | some k => rfl

/-- An entry of a group is taken over for the setting that it names, and for no other one. -/
theorem takes_entry
    (ran : (named? g name).elim (some s) (fun k => (k.read? node).map (k.put s)) = some s') :
    k.Takes (if k.isIn g = true ∧ k.name.sameFold name = true then [node] else []) s s' := by
  cases found : named? g name with
  | none =>
    rw [found] at ran
    obtain rfl := Option.some.inj ran
    have unnamed : ¬ (k.isIn g = true ∧ k.name.sameFold name = true) := fun own => by
      rw [named?_eq_some_iff.2 own] at found
      cases found
    rw [if_neg unnamed]
    exact rfl
  | some k' =>
    rw [found] at ran
    obtain ⟨h, read, rfl⟩ := Option.map_eq_some_iff.1 ran
    have own := named?_eq_some_iff.1 found
    by_cases same : k = k'
    · subst same
      rw [if_pos own]
      exact read.trans (congrArg some (held_put read).symm)
    · rw [if_neg fun named => same (name_unique named.2 own.2)]
      exact held_put_of_ne same

theorem nodesUnder_nil : k.nodesUnder g (.table []) = [] := ite_self _

/-- An entry of a group is for a setting if both the group and the name are those of the setting. -/
theorem nodesUnder_cons {entries : Toml.Table} :
    k.nodesUnder g (.table ((name, node) :: entries)) =
      (if k.isIn g = true ∧ k.name.sameFold name = true then [node] else []) ++
        k.nodesUnder g (.table entries) := by
  rw [nodesUnder, nodesUnder, nodesIn, nodesIn, List.filter_cons]
  by_cases isIn : k.isIn g = true
  · rw [if_pos isIn, if_pos isIn]
    by_cases folds : k.name.sameFold name = true
    · rw [if_pos folds, if_pos ⟨isIn, folds⟩]
      rfl
    · rw [if_neg folds, if_neg fun both => folds both.2]
      rfl
  · rw [if_neg isIn, if_neg isIn, if_neg fun both => isIn both.1]
    rfl

/-- The entries of a group are taken over for the settings that are in it. -/
theorem takes_addGroup {entries : Toml.Table} (ran : addGroup g entries s = some s') :
    k.Takes (k.nodesUnder g (.table entries)) s s' := by
  induction entries generalizing s with
  | nil =>
    obtain rfl := Option.some.inj ran
    rw [nodesUnder_nil]
    exact rfl
  | cons e entries ih =>
    obtain ⟨name, node⟩ := e
    rw [addGroup_cons] at ran
    obtain ⟨s₁, first, later⟩ := Option.bind_eq_some_iff.1 ran
    rw [nodesUnder_cons]
    exact (takes_entry first).append (ih later)

section Groups

variable {root : Toml.Table}

theorem addGroups_of_not_isGroup (other : isGroup g = false) :
    addGroups ((g, node) :: root) s = addGroups root s := by
  rw [addGroups.eq_def]
  dsimp only
  rw [other]
  cases node with
  | _ => rfl

theorem addGroups_of_isGroup {entries : Toml.Table} (own : isGroup g = true) :
    addGroups ((g, .table entries) :: root) s =
      (addGroup g entries s).bind (addGroups root) := by
  rw [addGroups.eq_def]
  dsimp only
  rw [own]
  rfl

theorem eq_table_of_isTable (table : node.isTable = true) : ∃ entries, node = .table entries := by
  cases node with
  | table entries => exact ⟨entries, rfl⟩
  | value | tables => cases table

/-- What has the name of a group is a table if it can be taken over. -/
theorem eq_table_of_addGroups (own : isGroup g = true)
    (ran : addGroups ((g, node) :: root) s = some s') : ∃ entries, node = .table entries := by
  rw [addGroups.eq_def] at ran
  dsimp only at ran
  rw [own] at ran
  cases node with
  | table entries => exact ⟨entries, rfl⟩
  | value | tables => cases ran

/-- **Each setting holds what the document says for it**, and what it held before if the document
leaves it out. -/
theorem takes_addGroups (ran : addGroups root s = some s') : k.Takes (k.nodes root) s s' := by
  induction root generalizing s with
  | nil =>
    obtain rfl := Option.some.inj ran
    exact rfl
  | cons e root ih =>
    obtain ⟨g, node⟩ := e
    cases own : isGroup g with
    | false =>
      have elsewhere : ¬ k.isIn g = true := fun isIn => by
        rw [isGroup_of_isIn isIn] at own
        cases own
      have empty : k.nodesUnder g node = [] := by
        cases node with
        | table entries => rw [nodesUnder, if_neg elsewhere]
        | value | tables => rfl
      rw [addGroups_of_not_isGroup own] at ran
      rw [nodes, List.flatMap_cons, empty]
      exact ih ran
    | true =>
      obtain ⟨entries, rfl⟩ := eq_table_of_addGroups own ran
      rw [addGroups_of_isGroup own] at ran
      obtain ⟨s₁, first, later⟩ := Option.bind_eq_some_iff.1 ran
      exact (takes_addGroup first).append (ih later)

/-- The entries of a group can be taken over if they are of the right kinds. -/
theorem exists_addGroup {entries : Toml.Table}
    (kinds : ∀ k : Setting, ∀ node ∈ k.nodesUnder g (.table entries),
      (k.read? node).isSome = true) :
    ∃ s', addGroup g entries s = some s' := by
  induction entries generalizing s with
  | nil => exact ⟨s, rfl⟩
  | cons e entries ih =>
    obtain ⟨name, node⟩ := e
    have later : ∀ k : Setting, ∀ n ∈ k.nodesUnder g (.table entries),
        (k.read? n).isSome = true := by
      intro k n mem
      refine kinds k n ?_
      rw [nodesUnder_cons]
      exact List.mem_append_right _ mem
    rw [addGroup_cons]
    cases found : named? g name with
    | none => exact ih later
    | some k =>
      have mem : node ∈ k.nodesUnder g (.table ((name, node) :: entries)) := by
        rw [nodesUnder_cons, if_pos (named?_eq_some_iff.1 found)]
        exact List.mem_cons_self
      obtain ⟨h, read⟩ := Option.isSome_iff_exists.1 (kinds k node mem)
      dsimp only [Option.elim_some]
      rw [read]
      exact ih later

/-- A document that fits the settings can be taken over. -/
theorem exists_addGroups
    (tables : ∀ e ∈ root, isGroup e.1 = true → e.2.isTable = true)
    (kinds : ∀ k : Setting, ∀ node ∈ k.nodes root, (k.read? node).isSome = true) :
    ∃ s', addGroups root s = some s' := by
  induction root generalizing s with
  | nil => exact ⟨s, rfl⟩
  | cons e root ih =>
    obtain ⟨g, node⟩ := e
    obtain ⟨table, below⟩ := List.forall_mem_cons.1 tables
    have first : ∀ k : Setting, ∀ n ∈ k.nodesUnder g node, (k.read? n).isSome = true :=
      fun k n mem => kinds k n (List.mem_append_left _ mem)
    have later : ∀ k : Setting, ∀ n ∈ k.nodes root, (k.read? n).isSome = true :=
      fun k n mem => kinds k n (List.mem_append_right _ mem)
    cases own : isGroup g with
    | false =>
      rw [addGroups_of_not_isGroup own]
      exact ih below later
    | true =>
      obtain ⟨entries, rfl⟩ := eq_table_of_isTable (table own)
      obtain ⟨s₁, added⟩ := exists_addGroup (s := s) first
      rw [addGroups_of_isGroup own, added]
      exact ih below later

end Groups

end Setting

namespace Decoder

theorem toml_decode? (t : Text) : Decoder.toml.decode? t =
    (Toml.Document.ofText? t).bind fun doc => (addGroups doc.root {}).bind fun s =>
      some (s, doc.keys.filter fun key => !Setting.isKnown key) := rfl

section Toml

variable {t : Text} {doc : Toml.Document} {s : Settings} {unknown : List Toml.Key}

/-- What the decoder gives is taken over from the document. -/
theorem toml_eq_some (spelt : Toml.Document.ofText? t = some doc)
    (decoded : Decoder.toml.decode? t = some (s, unknown)) :
    addGroups doc.root {} = some s ∧
      unknown = doc.keys.filter fun key => !Setting.isKnown key := by
  rw [toml_decode?, spelt, Option.bind_some] at decoded
  obtain ⟨s, added, given⟩ := Option.bind_eq_some_iff.1 decoded
  cases given
  exact ⟨added, rfl⟩

theorem takes_toml (spelt : Toml.Document.ofText? t = some doc)
    (decoded : Decoder.toml.decode? t = some (s, unknown)) (k : Setting) :
    k.Takes (k.nodes doc.root) {} s :=
  Setting.takes_addGroups (toml_eq_some spelt decoded).1

end Toml

/-- **The decoder for TOML is correct** for the documents that are read from TOML. -/
theorem isCorrect_toml :
    Decoder.toml.IsCorrect fun t doc => Toml.Document.ofText? t = some doc where
  accepts := by
    intro t doc spelt readable
    obtain ⟨s, added⟩ := Setting.exists_addGroups (s := {}) readable.tables readable.kinds
    refine ⟨s, doc.keys.filter fun key => !Setting.isKnown key, ?_⟩
    rw [toml_decode?, spelt, Option.bind_some, added, Option.bind_some]
  sets := by
    intro t doc s unknown spelt decoded k given
    have taken := takes_toml spelt decoded k
    rw [Setting.Takes, List.getLast?_eq_some_getLast given] at taken
    exact ⟨_, List.getLast_mem given, taken⟩
  leaves := by
    intro t doc s unknown spelt decoded k missing
    have taken := takes_toml spelt decoded k
    rwa [Setting.Takes, missing] at taken
  unknown := by
    intro t doc s unknown spelt decoded
    exact (toml_eq_some spelt decoded).2

end Decoder

end Settings

end Pseudocode

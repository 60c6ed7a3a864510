import Pseudocode.Settings.Decoder
import Pseudocode.Settings.Setting
import Pseudocode.Toml.Draft

/-!
# Settings written in TOML

A settings file is a TOML document with a table for each group of settings. The decoder for it takes
over the entries of these tables one after another, so of two entries for one setting, which can
only be there under names that differ in case, the later one counts. Another decoder may choose
another of them; this is the one that the program runs with.
-/

namespace Pseudocode.Settings

/-- Take over the settings of a group. Names that are no setting are passed over. -/
def addGroup (group : Text) : Toml.Table → Settings → Option Settings
  | [], s => some s
  | (name, node) :: rest, s => do
    let s ← match Setting.named? group name with
      | some k => (k.read? node).map (k.put s)
      | none => some s
    addGroup group rest s

/-- Take over the settings of all groups. A group must be a table. -/
def addGroups : Toml.Table → Settings → Option Settings
  | [], s => some s
  | (name, node) :: rest, s => do
    let s ← match Setting.isGroup name, node with
      | true, .table entries => addGroup name entries s
      | true, _ => none
      | false, _ => some s
    addGroups rest s

/-- The decoder for settings that are written in TOML. -/
def Decoder.toml : Decoder where
  decode? content := do
    let doc ← Toml.Document.ofText? content
    let s ← addGroups doc.root {}
    return (s, doc.keys.filter fun key => !Setting.isKnown key)

/-- The settings of the TOML file at a path. -/
def load : Environment → Files → Text → Except SettingsError Settings := Decoder.toml.load

/-- The settings of the TOML file that the environment names, or of the first default path that
exists, or the default settings. -/
def loadFromEnvironment : Environment → Files → Except SettingsError Settings :=
  Decoder.toml.loadFromEnvironment

end Pseudocode.Settings

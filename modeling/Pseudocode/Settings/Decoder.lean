import Pseudocode.Files
import Pseudocode.Settings.Basic
import Pseudocode.Toml.Syntax

/-!
# Settings from a file

How a file becomes settings is a matter of its decoder, which is a parameter here. What the decoder
gives is completed: every key of the file must be a setting, what was left out has its default, and
references to environment variables in the history file are replaced.

Settings come from the file that is asked for, or else from the first default place that has one.
-/

namespace Pseudocode.Settings

/-- A decoder of settings files. Where it can decode a text it gives the settings that the text
sets, with all others as they are when nothing is set, and the keys of the text that are no
settings, in the order of the text. -/
structure Decoder where
  decode? : Text → Option (Settings × List Toml.Key)

namespace Decoder

variable (d : Decoder)

/-- The settings that a file gives. The first key that is no setting is reported. -/
def ofFile (env : Environment) (path content : Text) : Except SettingsError Settings :=
  match d.decode? content with
  | none => .error .unreadable
  | some (_, key :: _) => .error (.unknownKey key.text path)
  | some (s, []) => validate (expandHistoryFile env (withDefaults env s))

/-- The settings of the file at a path. References to environment variables in it are replaced. -/
def load (env : Environment) (fs : Files) (path : Text) : Except SettingsError Settings :=
  let path := env.expand path
  match fs.read path with
  | .error .missing => .error (.notFound path)
  | .error _ => .error .unreadable
  | .ok content => d.ofFile env path content

end Decoder

/-- Where settings are looked for when no file is asked for. -/
def defaultPaths (env : Environment) : List Text :=
  let here : Text := "./algoritmo.toml"
  match env.configDirectory? with
  | some dir => [here, Path.join [dir, "algoritmo", "config.toml"]]
  | none => [here]

/-- The settings of the file that the environment names, or of the first default path that exists,
or the default settings. -/
def Decoder.loadFromEnvironment (d : Decoder) (env : Environment) (fs : Files) :
    Except SettingsError Settings :=
  let path := env.get "ALGORITMO_CONFIG"
  if !path.isEmpty then d.load env fs path
  else match (defaultPaths env).find? fun p => (fs.lookup p).isOk with
    | some p => d.load env fs p
    | none => .ok (default env)

end Pseudocode.Settings

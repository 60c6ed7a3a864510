import Pseudocode.Proofs.Settings.Entries
import Pseudocode.Proofs.Settings.Expansion

/-!
# Settings with a file and without

When no file is asked for, settings come from the first default place that has one, and a setting
that this file leaves out is to have its default. Two expansions stand in the way: the place is
looked for as it is and then read with its references to environment variables replaced, and in the
history file references are replaced after its default has been filled in. Where a dollar sign in
the environment makes a difference to one of them, a file that is there is not found, or the history
goes elsewhere than it does without a file.

All of this comes before or after the file is decoded, so it holds with every correct decoder.
-/

namespace Pseudocode

namespace Settings

open Setting

/-- Whether a setting counts as left out. -/
def Held.IsBlank : Held → Prop
  | .text t => t = Text.empty
  | .truth b => b = none
  | _ => False

/-- What is held after references to environment variables are replaced, which is only done in the
history file. -/
def Setting.expanded (env : Environment) : Setting → Held → Held
  | historyFile, .text t => .text (env.expand t)
  | _, held => held

section Defaults

variable {env : Environment} {s s' : Settings} {k : Setting}

theorem orElse_of_ne {t default : Text} (some : t ≠ Text.empty) : t.orElse default = t := by
  have bytes : t.bytes ≠ [] := fun none => some (Text.ext none)
  rw [Text.orElse, Text.isEmpty, List.isEmpty_eq_false_iff.2 bytes, if_neg Bool.false_ne_true]

theorem held_withDefaults_congr (same : k.held s = k.held s') :
    k.held (withDefaults env s) = k.held (withDefaults env s') := by
  cases k with
  | maxSteps | timeout | seed => exact same
  | prompt | continuePrompt | historyFile | level | format =>
    have texts := Held.text.inj same
    simp only [held, withDefaults, texts]
  | color =>
    have truths := Held.truth.inj same
    simp only [held, withDefaults, truths]

theorem held_withDefaults (set : ¬ (k.held s).IsBlank) :
    k.held (withDefaults env s) = k.held s := by
  cases k with
  | maxSteps | timeout | seed => rfl
  | prompt | continuePrompt | historyFile | level | format =>
    exact congrArg Held.text (orElse_of_ne set)
  | color =>
    obtain ⟨b, chosen⟩ := Option.ne_none_iff_exists'.1 set
    simp only [held, withDefaults, chosen, Option.getD_some]

/-- What counts as left out is what is held when nothing is set. -/
theorem held_of_isBlank (blank : (k.held s).IsBlank) : k.held s = k.held {} := by
  cases k with
  | maxSteps | timeout | seed => exact blank.elim
  | prompt | continuePrompt | historyFile | level | format => exact congrArg Held.text blank
  | color => exact congrArg Held.truth blank

theorem held_expandHistoryFile : k.held (expandHistoryFile env s) = k.expanded env (k.held s) := by
  cases k with
  | _ => rfl

/-- A setting that is not set holds its default, if expansion does not change this. -/
theorem held_eq_default (same : k.held s = k.held {})
    (fixed : k = historyFile → env.expand (defaultHistoryFile env) = defaultHistoryFile env) :
    k.held (expandHistoryFile env (withDefaults env s)) = k.held (default env) := by
  have filled : k.held (withDefaults env s) = k.held (default env) := held_withDefaults_congr same
  rw [held_expandHistoryFile, filled]
  cases k with
  | historyFile => exact congrArg Held.text (fixed rfl)
  | _ => rfl

theorem contains_orElse {t default : Text} {all : List Text} (mem : all.contains default = true)
    (allowed : (t.isEmpty || all.contains t) = true) : all.contains (t.orElse default) = true := by
  rw [Text.orElse]
  split
  · exact mem
  · next filled =>
    rw [Bool.not_eq_true] at filled
    rwa [filled, Bool.false_or] at allowed

theorem validate_eq_ok (steps : 0 ≤ s.run.maxSteps) (timeout : 0 ≤ s.run.timeout.nanoseconds)
    (level : levels.contains s.log.level = true) (format : formats.contains s.log.format = true) :
    validate s = .ok s := by
  rw [validate, if_neg (Int.not_lt.2 steps), if_neg (Int.not_lt.2 timeout), level, format]
  rfl

/-- Settings that are allowed stay so when defaults are filled in. -/
theorem validate_of_allows (allows : ∀ k : Setting, k.allows (k.held s) = true) :
    validate (expandHistoryFile env (withDefaults env s)) =
      .ok (expandHistoryFile env (withDefaults env s)) :=
  validate_eq_ok (of_decide_eq_true (allows maxSteps)) (of_decide_eq_true (allows timeout))
    (contains_orElse (by decide +kernel) (allows level))
    (contains_orElse (by decide +kernel) (allows format))

end Defaults

section Loading

variable {d : Decoder} {spells : Text → Toml.Document → Prop} {env : Environment} {fs : Files}
  {path content : Text} {doc : Toml.Document} {s : Settings}

/-- A file with a valid document gives the settings that the decoder gives, completed. -/
theorem Decoder.IsCorrect.load_eq_ok (correct : d.IsCorrect spells)
    (expands : env.expand path = path) (holds : fs.read path = .ok content)
    (spelt : spells content doc) (valid : IsValid doc)
    (decoded : d.decode? content = some (s, [])) :
    d.load env fs path = .ok (expandHistoryFile env (withDefaults env s)) := by
  rw [Decoder.load, expands, holds]
  dsimp only
  rw [Decoder.ofFile, decoded]
  exact validate_of_allows (correct.allows_held spelt valid decoded)

end Loading

/-- The first of the default places where there is something. -/
def place? (env : Environment) (fs : Files) : Option Text :=
  (defaultPaths env).find? fun path => (fs.lookup path).isOk

/-- **A file changes what it says, and nothing else.** Let a decoder be correct for a language, and
let no file be asked for. If the first default place has a file that spells a valid document, and
expansion does not change the path of this place, there are settings. Each of them holds what the
file says for it, with references replaced in the history file; and where the file leaves it out, or
empty, it holds what it holds without a file. For the history file this takes that expansion does
not change its default either. Without a file, the settings are the default ones. Expansion changes
none of these paths if there is no dollar sign in the variables that they are made from. -/
theorem loadFromEnvironment_agrees {d : Decoder} {spells : Text → Toml.Document → Prop}
    {env : Environment} {fs : Files} (correct : d.IsCorrect spells)
    (unset : env.get "ALGORITMO_CONFIG" = Text.empty) :
    (∀ (path content : Text) (doc : Toml.Document), place? env fs = some path →
      env.expand path = path → fs.read path = .ok content → spells content doc → IsValid doc →
      ∃ r, d.loadFromEnvironment env fs = .ok r ∧ ∀ k : Setting,
        (k.nodes doc.root ≠ [] →
          ∃ node ∈ k.nodes doc.root, ∃ held, k.read? node = some held ∧
            (¬ held.IsBlank → k.held r = k.expanded env held) ∧
            (held.IsBlank →
              (k = historyFile → env.expand (defaultHistoryFile env) = defaultHistoryFile env) →
              k.held r = k.held (default env))) ∧
        (k.nodes doc.root = [] →
          (k = historyFile → env.expand (defaultHistoryFile env) = defaultHistoryFile env) →
          k.held r = k.held (default env))) ∧
    (place? env fs = none → d.loadFromEnvironment env fs = .ok (default env)) ∧
    ((env.get "HOME").IsPlain → (env.get "XDG_CONFIG_HOME").IsPlain →
      (∀ path, place? env fs = some path → env.expand path = path) ∧
      env.expand (defaultHistoryFile env) = defaultHistoryFile env) := by
  have searched : d.loadFromEnvironment env fs =
      (place? env fs).elim (.ok (default env)) (d.load env fs) := by
    rw [Decoder.loadFromEnvironment, unset, place?]
    cases (defaultPaths env).find? fun path => (fs.lookup path).isOk with
    | _ => rfl
  refine ⟨?_, ?_, ?_⟩
  · intro path content doc place expands holds spelt valid
    obtain ⟨s, decoded⟩ := correct.exists_decode? spelt valid
    refine ⟨expandHistoryFile env (withDefaults env s), ?_, fun k => ⟨?_, ?_⟩⟩
    · rw [searched, place]
      exact correct.load_eq_ok expands holds spelt valid decoded
    -- The decoder decides what is held before defaults are filled in; expansion comes after them.
    · intro given
      obtain ⟨node, mem, read⟩ := correct.sets spelt decoded k given
      refine ⟨node, mem, k.held s, read, fun filled => ?_, fun blank => ?_⟩
      · rw [held_expandHistoryFile, held_withDefaults filled]
      · exact held_eq_default (held_of_isBlank blank)
    · intro missing
      exact held_eq_default (correct.leaves spelt decoded k missing)
  · intro nowhere
    rw [searched, nowhere]
    rfl
  · intro home config
    refine ⟨fun path place => ?_, ?_⟩
    · have mem := List.mem_of_find?_eq_some place
      exact Environment.expand_of_isPlain (isPlain_of_mem_defaultPaths home config mem)
    · exact Environment.expand_of_isPlain (isPlain_defaultHistoryFile home)

/-- A TOML file that sets the level of the log: the settings have this level, and the history goes
where it goes without a file. -/
theorem loadFromEnvironment_agrees_level :
    let env : Environment := ⟨[("HOME", "/home/ana")]⟩
    let content : Text := "[log]\nlevel = \"debug\"\n"
    let fs : Files := ⟨["w"], [(["w", "algoritmo.toml"], content)]⟩
    Decoder.toml.IsCorrect (fun t doc => Toml.Document.ofText? t = some doc) ∧
    env.get "ALGORITMO_CONFIG" = Text.empty ∧ place? env fs = some "./algoritmo.toml" ∧
    ∃ r, loadFromEnvironment env fs = .ok r ∧ level.held r = .text "debug" ∧
      historyFile.held r = historyFile.held (default env) := by
  intro env content fs
  have unset : env.get "ALGORITMO_CONFIG" = Text.empty := by decide +kernel
  have place : place? env fs = some "./algoritmo.toml" := by decide +kernel
  obtain ⟨file, -, plain⟩ :=
    @loadFromEnvironment_agrees _ _ env fs Decoder.isCorrect_toml unset
  obtain ⟨fixedPath, fixedHistory⟩ := plain (by decide +kernel) (by decide +kernel)
  have read : ∀ doc ∈ Toml.Document.ofText? content, IsValid doc ∧
      (level.nodes doc.root).isEmpty = false ∧ (historyFile.nodes doc.root).isEmpty = true ∧
      ∀ node ∈ level.nodes doc.root, level.read? node = some (.text "debug") := by
    decide +kernel
  have reads : (Toml.Document.ofText? content).isSome = true := by decide +kernel
  obtain ⟨doc, spelt⟩ := Option.isSome_iff_exists.1 reads
  obtain ⟨valid, given, missing, debug⟩ := read doc spelt
  obtain ⟨r, loaded, agree⟩ :=
    file "./algoritmo.toml" content doc place (fixedPath _ place) rfl spelt valid
  obtain ⟨node, mem, held, holds, filled, -⟩ := (agree level).1 (List.isEmpty_eq_false_iff.1 given)
  obtain rfl : held = .text "debug" := Option.some.inj (holds.symm.trans (debug node mem))
  have set : ("debug" : Text) ≠ Text.empty := by decide
  exact ⟨Decoder.isCorrect_toml, unset, place, r, loaded, filled set,
    (agree historyFile).2 (List.isEmpty_iff.1 missing) fun _ => fixedHistory⟩

/-- A dollar sign in the name of the home directory is taken for a reference when there is a file,
also one that says nothing; and if the directory for settings has one in its name, then a file that
is there is reported as missing. -/
theorem not_loadFromEnvironment_agrees_dollar :
    Decoder.toml.IsCorrect (fun t doc => Toml.Document.ofText? t = some doc) ∧
    Toml.Document.ofText? Text.empty = some ⟨[], []⟩ ∧ IsValid ⟨[], []⟩ ∧
    (let env : Environment := ⟨[("HOME", "/home/$nada")]⟩
      let fs : Files := ⟨["w"], [(["w", "algoritmo.toml"], Text.empty)]⟩
      env.get "ALGORITMO_CONFIG" = Text.empty ∧ place? env fs = some "./algoritmo.toml" ∧
      fs.read "./algoritmo.toml" = .ok Text.empty ∧ historyFile.nodes [] = [] ∧
      ∃ r, Decoder.toml.loadFromEnvironment env fs = .ok r ∧
        historyFile.held r = .text "/home//.algoritmo_history" ∧
        historyFile.held (default env) = .text "/home/$nada/.algoritmo_history") ∧
    (let env : Environment := ⟨[("XDG_CONFIG_HOME", "/d$x")]⟩
      let fs : Files := ⟨["w"], [(["d$x", "algoritmo", "config.toml"], Text.empty)]⟩
      env.get "ALGORITMO_CONFIG" = Text.empty ∧
      place? env fs = some "/d$x/algoritmo/config.toml" ∧
      fs.read "/d$x/algoritmo/config.toml" = .ok Text.empty ∧
      Decoder.toml.loadFromEnvironment env fs = .error (.notFound "/d/algoritmo/config.toml")) := by
  refine ⟨Decoder.isCorrect_toml, rfl, by decide +kernel, ?_, ?_⟩
  · exact ⟨by decide +kernel, by decide +kernel, rfl, rfl, _, rfl, by decide +kernel,
      by decide +kernel⟩
  · exact ⟨by decide +kernel, by decide +kernel, rfl, rfl⟩

end Settings

end Pseudocode

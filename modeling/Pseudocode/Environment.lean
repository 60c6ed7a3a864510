import Pseudocode.Path

/-!
# Environment variables

Named texts that a host hands to a program. A text may refer to them as `$NAME` or `${NAME}`.
-/

namespace Pseudocode

/-- The variables that are set. -/
structure Environment where
  bindings : List (Text × Text) := []
  deriving Repr

namespace Environment

/-- The value of a variable, empty when it is not set. -/
def get (env : Environment) (name : Text) : Text := (env.bindings.lookup name).getD Text.empty

/-- Bytes that are a name of their own after a dollar sign. -/
def isSpecial (b : UInt8) : Bool :=
  (Text.ofString "*#$@!?-0123456789").bytes.contains b

/-- Bytes that longer names are made of. -/
def isNameByte (b : UInt8) : Bool :=
  b == 95 || (48 ≤ b && b ≤ 57) || (65 ≤ b && b ≤ 90) || (97 ≤ b && b ≤ 122)

/-- What a dollar sign refers to. -/
inductive Reference where
  | name (t : Text)
  | malformed
  | none

/-- The reference that follows a dollar sign, and how many bytes it takes. A closing brace may be
missing, or come at once. -/
def reference : List UInt8 → Reference × Nat
  | 123 :: b :: 125 :: rest =>
    if isSpecial b then (.name ⟨[b]⟩, 3) else braced (b :: 125 :: rest)
  | 123 :: rest => braced rest
  | b :: rest =>
    if isSpecial b then (.name ⟨[b]⟩, 1)
    else
      let name := (b :: rest).takeWhile isNameByte
      if name.isEmpty then (.none, 0) else (.name ⟨name⟩, name.length)
  | [] => (.none, 0)
where
  /-- The reference after an opening brace. -/
  braced (rest : List UInt8) : Reference × Nat :=
    let name := rest.takeWhile (· != 125)
    if name.length = rest.length then (.malformed, 1)
    else if name.isEmpty then (.malformed, 2)
    else (.name ⟨name⟩, name.length + 2)

/-- Replace the references of a text, of which `skip` bytes belong to the last reference. -/
def expandAfter (env : Environment) : Nat → List UInt8 → List UInt8
  | _, [] => []
  | skip + 1, _ :: rest => expandAfter env skip rest
  | 0, b :: rest =>
    if b = 36 ∧ rest ≠ [] then
      match reference rest with
      | (.name t, width) => (env.get t).bytes ++ expandAfter env width rest
      | (.malformed, width) => expandAfter env width rest
      | (.none, width) => b :: expandAfter env width rest
    else b :: expandAfter env 0 rest

/-- A text with its references replaced by the values of variables. -/
def expand (env : Environment) (t : Text) : Text := ⟨expandAfter env 0 t.bytes⟩

/-- The names that bytes may refer to. -/
def referencesIn : List UInt8 → List Text
  | [] => []
  | b :: rest =>
    match (reference rest).1 with
    | .name n => if b = 36 then n :: referencesIn rest else referencesIn rest
    | _ => referencesIn rest

/-- The names that a text may refer to. -/
def references (t : Text) : List Text := referencesIn t.bytes

/-- The directory for settings of a user: an absolute path in `XDG_CONFIG_HOME`, or else a directory
in the home directory. -/
def configDirectory? (env : Environment) : Option Text :=
  let xdg := env.get "XDG_CONFIG_HOME"
  let home := env.get "HOME"
  if xdg.isEmpty then (if home.isEmpty then none else some (home ++ "/.config"))
  else if Path.isAbsolute xdg then some xdg
  else none

end Environment

end Pseudocode

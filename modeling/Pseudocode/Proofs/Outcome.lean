import Pseudocode.Action

/-!
# Steps that may fail

A composite of steps succeeds exactly when each of its steps does, and its first failure is its own.
Proofs take a successful run apart with these and never unfold the composition. A search is such a
step, too.
-/

/-- Where one element at most has a property, a search for it finds an element exactly if it has
it. -/
theorem List.find?_eq_some_iff_of_unique {α : Type} {p : α → Bool} {all : List α} {a : α}
    (unique : ∀ b ∈ all, ∀ c ∈ all, p b = true → p c = true → b = c) :
    all.find? p = some a ↔ a ∈ all ∧ p a = true := by
  constructor
  · intro found
    exact ⟨mem_of_find?_eq_some found, find?_some found⟩
  · rintro ⟨mem, holds⟩
    obtain ⟨b, found⟩ := Option.isSome_iff_exists.1 (find?_isSome.2 ⟨a, mem, holds⟩)
    rw [found, unique a mem b (mem_of_find?_eq_some found) holds (find?_some found)]

namespace Except

variable {ε α β : Type} {x : Except ε α} {f : α → Except ε β} {e : ε} {b : β}

theorem bind_eq_ok : x >>= f = .ok b ↔ ∃ a, x = .ok a ∧ f a = .ok b := by
  cases x with
  | error | ok => simp [bind, Except.bind]

theorem toOption_eq_some {a : α} : x.toOption = some a ↔ x = .ok a := by
  cases x with
  | error | ok => simp [Except.toOption]

theorem mapError_eq_ok {δ : Type} {g : ε → δ} {a : α} : x.mapError g = .ok a ↔ x = .ok a := by
  constructor
  · intro h
    cases x with
    | error => cases h
    | ok a =>
      cases h
      rfl
  · rintro rfl
    rfl

theorem mapError_eq_error {δ : Type} {g : ε → δ} {d : δ} :
    x.mapError g = .error d ↔ ∃ e, x = .error e ∧ g e = d := by
  constructor
  · intro h
    cases x with
    | ok => cases h
    | error e =>
      cases h
      exact ⟨e, rfl, rfl⟩
  · rintro ⟨e, rfl, rfl⟩
    rfl

variable {σ τ : Type} {step : σ → τ → Except ε σ} {s s' : σ} {t : τ} {ts : List τ}

theorem foldlM_cons_eq_ok :
    (t :: ts).foldlM step s = .ok s' ↔ ∃ m, step s t = .ok m ∧ ts.foldlM step m = .ok s' := by
  rw [List.foldlM_cons, bind_eq_ok]

theorem foldlM_append_of_ok (h : ts.foldlM step s = .ok s') (us : List τ) :
    (ts ++ us).foldlM step s = us.foldlM step s' := by
  rw [List.foldlM_append, h]
  rfl

/-- A failure that was not made at the end was made on the way, and stays when the way goes on. -/
theorem foldlM_append_bind_of_error {last : σ → Except ε β}
    (h : ts.foldlM step s >>= last = .error e) (onTheWay : ∀ s', last s' ≠ .error e)
    {γ : Type} (us : List τ) (other : σ → Except ε γ) :
    (ts ++ us).foldlM step s >>= other = .error e := by
  rw [List.foldlM_append]
  cases hts : ts.foldlM step s with
  | ok s' =>
    rw [hts] at h
    exact absurd h (onTheWay s')
  | error e' =>
    rw [hts] at h
    cases h
    rfl

/-- Two results that are both failures, or both successes with the same view. -/
def SameUpTo {ε δ α γ : Type} (view : α → γ) (r : Except ε α) (r' : Except δ α) : Prop :=
  r.toOption.map view = r'.toOption.map view

namespace SameUpTo

variable {ε δ α β γ γ' : Type} {view : α → γ} {view' : β → γ'} {r r' : Except ε α}
  {k k' : α → Except ε β}

theorem bind (first : SameUpTo view r r')
    (rest : ∀ a a', view a = view a' → SameUpTo view' (k a) (k' a')) :
    SameUpTo view' (r >>= k) (r' >>= k') := by
  cases r with
  | error =>
    cases r' with
    | error => rfl
    | ok => cases first
  | ok a =>
    cases r' with
    | error => cases first
    | ok a' => exact rest a a' (Option.some.inj first)

theorem ite {c : Prop} [Decidable c] {q q' : Except ε α} (yes : SameUpTo view r r')
    (no : SameUpTo view q q') : SameUpTo view (if c then r else q) (if c then r' else q') := by
  split
  · exact yes
  · exact no

theorem mapError {g : ε → δ} (h : SameUpTo view r r') :
    SameUpTo view (r.mapError g) (r'.mapError g) := by
  cases r with
  | _ =>
    cases r' with
    | _ => exact h

theorem symm (h : SameUpTo view r r') : SameUpTo view r' r := Eq.symm h

/-- Where one of the two is a success, so is the other. -/
theorem exists_ok {r : Except ε α} {r' : Except δ α} (h : SameUpTo view r r') {a : α}
    (ok : r = .ok a) : ∃ a', r' = .ok a' ∧ view a' = view a := by
  subst ok
  cases r' with
  | error => cases h
  | ok a' => exact ⟨a', rfl, (Option.some.inj h).symm⟩

end SameUpTo

section View

variable {ε ε' δ α β γ γ' : Type} {failure : ε → δ} {success : α → γ} {success' : β → γ'}
  {r r' : Except ε α} {k k' : α → Except ε β}

/-- A result whose error and whose value are looked at in another way. -/
def view (failure : ε → δ) (success : α → γ) (r : Except ε α) : Except δ γ :=
  (r.map success).mapError failure

@[simp] theorem view_ok (a : α) : (ok a : Except ε α).view failure success = .ok (success a) := rfl

@[simp] theorem view_error (e : ε) :
    (error e : Except ε α).view failure success = .error (failure e) := rfl

theorem view_mapError {failure' : ε' → δ} (wrap : ε → ε') :
    (r.mapError wrap).view failure' success = r.view (failure' ∘ wrap) success := by
  cases r with
  | _ => rfl

/-- Results that look alike still do from further off. -/
theorem view_comp_congr {δ' : Type} (same : r.view failure success = r'.view failure success)
    (further : δ → δ') :
    r.view (further ∘ failure) success = r'.view (further ∘ failure) success := by
  have seen (r : Except ε α) : r.view (further ∘ failure) success =
      (r.view failure success).mapError further := by
    cases r with
    | _ => rfl
  rw [seen, seen, same]

/-- Composites look alike when their first parts do and their rests do after values that do. -/
theorem view_bind_congr (first : r.view failure success = r'.view failure success)
    (rest : ∀ a a', success a = success a' →
      (k a).view failure success' = (k' a').view failure success') :
    (r >>= k).view failure success' = (r' >>= k').view failure success' := by
  cases r with
  | error e =>
    cases r' with
    | error e' => exact congrArg Except.error (Except.error.inj first)
    | ok => cases first
  | ok a =>
    cases r' with
    | error => cases first
    | ok a' => exact rest a a' (Except.ok.inj first)

/-- What a composite looks like is made of what its parts look like. -/
theorem view_bind {k' : γ → Except δ γ'} {r' : Except δ γ} (first : r' = r.view failure success)
    (rest : ∀ a, (k a).view failure success' = k' (success a)) :
    (r >>= k).view failure success' = r' >>= k' := by
  subst first
  cases r with
  | error => rfl
  | ok a => exact rest a

theorem sameUpTo_of_view_eq (same : r.view failure success = r'.view failure success) :
    SameUpTo success r r' := by
  cases r with
  | error =>
    cases r' with
    | error => rfl
    | ok => cases same
  | ok a =>
    cases r' with
    | error => cases same
    | ok a' => exact congrArg some (Except.ok.inj same)

end View

end Except

namespace Pseudocode.Action

variable {σ ε α β : Type} {x : Action σ ε α} {f : α → Action σ ε β} {s s' : σ}

theorem bind_of_ok {a : α} (h : x s = (.ok a, s')) : (x >>= f) s = f a s' := by
  rw [bind_apply, h]

theorem bind_of_error {e : ε} (h : x s = (.error e, s')) : (x >>= f) s = (.error e, s') := by
  rw [bind_apply, h]

/-- A composite that succeeds has a first part that succeeds, and a rest that does from there on. -/
theorem bind_eq_ok {b : β} :
    (x >>= f) s = (.ok b, s') ↔ ∃ a m, x s = (.ok a, m) ∧ f a m = (.ok b, s') := by
  rcases h : x s with ⟨e | a, m⟩
  · simp [bind_of_error h]
  · rw [bind_of_ok h]
    constructor
    · exact fun later => ⟨a, m, rfl, later⟩
    · rintro ⟨_, _, heq, later⟩
      cases heq
      exact later

/-- It does not matter how a sequence of actions is grouped. -/
theorem bind_assoc {γ : Type} (x : Action σ ε α) (f : α → Action σ ε β) (g : β → Action σ ε γ) :
    x >>= f >>= g = x >>= fun a => f a >>= g := by
  funext s
  rcases h : x s with ⟨e | a, m⟩
  · rw [bind_of_error h, bind_of_error (bind_of_error h)]
  · rw [bind_of_ok h, bind_apply, bind_of_ok h, bind_apply]

/-- An action whose errors are looked at in another way. -/
def viewError (view : ε → ε) (x : Action σ ε α) : Action σ ε α := fun s =>
  match x s with
  | (.ok a, s) => (.ok a, s)
  | (.error e, s) => (.error (view e), s)

variable {view : ε → ε}

theorem viewError_of_ok {a : α} (h : x s = (.ok a, s')) : x.viewError view s = (.ok a, s') := by
  simp only [viewError, h]

theorem viewError_of_error {e : ε} (h : x s = (.error e, s')) :
    x.viewError view s = (.error (view e), s') := by
  simp only [viewError, h]

@[simp] theorem viewError_pure (a : α) : (pure a : Action σ ε α).viewError view = pure a := rfl

theorem viewError_bind : (x >>= f).viewError view = x.viewError view >>= fun a =>
    (f a).viewError view := by
  funext s
  rcases h : x s with ⟨e | a, m⟩
  · rw [bind_of_error (viewError_of_error h), viewError_of_error (bind_of_error h)]
  · rw [bind_of_ok (viewError_of_ok h)]
    simp only [viewError, bind_of_ok h]

variable {P : ε → Prop}

/-- An action fails in no way but those of a property. -/
def FailsOnly (P : ε → Prop) (x : Action σ ε α) : Prop := ∀ ⦃s e s'⦄, x s = (.error e, s') → P e

theorem failsOnly_pure (a : α) : FailsOnly P (pure a : Action σ ε α) := nofun

theorem failsOnly_fail {e : ε} (h : P e) : FailsOnly P (fail e : Action σ ε α) := by
  intro s e' s' failed
  cases failed
  exact h

theorem FailsOnly.bind (first : FailsOnly P x) (rest : ∀ a, FailsOnly P (f a)) :
    FailsOnly P (x >>= f) := by
  intro s e s' failed
  rcases h : x s with ⟨e' | a, m⟩
  · rw [bind_of_error h] at failed
    cases failed
    exact first h
  · rw [bind_of_ok h] at failed
    exact rest a failed

end Pseudocode.Action

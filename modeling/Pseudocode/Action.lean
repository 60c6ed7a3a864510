/-!
# Actions that may fail

An action changes a state and gives a value or an error. The state is there in either case: what an
action did before it failed has been done. Evaluating an expression and executing a statement are
such actions, over different states.
-/

namespace Pseudocode

/-- A state change that gives a value or an error. -/
def Action (σ ε α : Type) := σ → Except ε α × σ

namespace Action

variable {σ τ ε δ α β : Type}

/-- Give a value and change nothing. -/
protected def pure (a : α) : Action σ ε α := fun s => (.ok a, s)

/-- One action after another, unless the first fails. -/
protected def bind (x : Action σ ε α) (f : α → Action σ ε β) : Action σ ε β := fun s =>
  match x s with
  | (.ok a, s) => f a s
  | (.error e, s) => (.error e, s)

instance : Monad (Action σ ε) where
  pure := Action.pure
  bind := Action.bind

/-- Fail and change nothing. -/
def fail (e : ε) : Action σ ε α := fun s => (.error e, s)

/-- The state. -/
def state : Action σ ε σ := fun s => (.ok s, s)

/-- Change the state. -/
def update (f : σ → σ) : Action σ ε Unit := fun s => (.ok (), f s)

/-- A result that is already known. -/
def ofExcept : Except ε α → Action σ ε α := fun r s => (r, s)

/-- Do an action on a part of the state. -/
def onPart (get : σ → τ) (set : τ → σ → σ) (wrap : δ → ε) (x : Action τ δ α) :
    Action σ ε α := fun s =>
  match x (get s) with
  | (.ok a, t) => (.ok a, set t s)
  | (.error e, t) => (.error (wrap e), set t s)

@[simp] theorem pure_apply (a : α) (s : σ) : (pure a : Action σ ε α) s = (.ok a, s) := rfl

@[simp] theorem fail_apply (e : ε) (s : σ) : (fail e : Action σ ε α) s = (.error e, s) := rfl

@[simp] theorem update_apply (f : σ → σ) (s : σ) :
    (update f : Action σ ε Unit) s = (.ok (), f s) := rfl

theorem bind_apply (x : Action σ ε α) (f : α → Action σ ε β) (s : σ) :
    (x >>= f) s = match x s with
      | (.ok a, s) => f a s
      | (.error e, s) => (.error e, s) := rfl

end Action

end Pseudocode

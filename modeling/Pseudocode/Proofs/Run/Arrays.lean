import Pseudocode.Proofs.Run.Elements
import Pseudocode.Proofs.Run.Walk

/-!
# The arrays of a run

A run creates an array where it executes a dimension, and nowhere else, and an array keeps the
length it was created with. A value that a variable or an element holds names an array only if that
array was created, because expressions give no array that is not held already: operators and
functions have numbers, texts and truth values for results.

So the arrays of a state are those of the dimensions executed so far, in this order, and every
length is within the limit. Where the limit is one that doubles count up to, the bounds law holds
in all states of a run.
-/

namespace Pseudocode

/-- All values that an action can give have a property. -/
def Action.Gives {σ ε α : Type} (P : α → Prop) (x : Action σ ε α) : Prop :=
  ∀ ⦃s a s'⦄, x s = (.ok a, s') → P a

namespace Action

variable {σ ε α β : Type} {P : β → Prop}

theorem gives_pure {b : β} (h : P b) : Gives P (pure b : Action σ ε β) := by
  intro s b' s' ran
  cases ran
  exact h

theorem gives_fail {e : ε} : Gives P (fail e : Action σ ε β) := by
  intro s b s' ran
  cases ran

theorem gives_bind {x : Action σ ε α} {f : α → Action σ ε β} (rest : ∀ a, Gives P (f a)) :
    Gives P (x >>= f) := by
  intro s b s' ran
  obtain ⟨a, s₁, _, ran⟩ := bind_eq_ok.1 ran
  exact rest a ran

end Action

open Pseudocode.Action (Gives gives_pure gives_fail gives_bind)

/-- A value that names no array. -/
def Value.IsAtomic : Value → Prop
  | array _ => False
  | _ => True

theorem Value.isAtomic_ofInput (line : Text) : (ofInput line).IsAtomic := by
  simp only [ofInput]
  split
  · split
    · split
      · trivial
      · trivial
    · trivial
  · trivial

namespace Eval

/-- A result that is no array, or a fault. -/
def AtomicResult : Except Fault Value → Prop
  | .ok v => v.IsAtomic
  | .error _ => True

theorem AtomicResult.of_ok {r : Except Fault Value} {v : Value} (h : AtomicResult r)
    (ok : r = .ok v) : v.IsAtomic := by
  rw [ok] at h
  exact h

theorem atomicResult_binary (arrays : Arrays) (op : BinaryOp) (lhs rhs : Value) :
    AtomicResult (binary arrays op lhs rhs) := by
  cases op with
  | eq | ne | and | or | other => trivial
  | div =>
    simp only [binary]
    split
    · split
      · trivial
      · trivial
    · trivial
  | _ =>
    simp only [binary]
    split
    all_goals trivial

theorem atomicResult_unary (op : UnaryOp) (v : Value) : AtomicResult (unary op v) := by
  rw [unary.eq_def]
  split
  · trivial
  · trivial

end Eval

/-- The result of a function is no array. -/
theorem Builtin.gives_apply (draws : Nat → Number) (arrays : Arrays) (b : Builtin)
    (args : List Value) : Gives Value.IsAtomic (b.apply draws arrays args) := by
  rw [apply.eq_def]
  split
  · exact gives_bind fun x => gives_pure trivial
  · exact gives_bind fun lo => gives_bind fun hi => gives_bind fun r => gives_pure trivial
  · exact gives_bind fun hi => gives_bind fun r => gives_pure trivial
  · split
    · exact gives_pure trivial
    · exact gives_pure trivial
    · exact gives_fail
  · exact gives_pure trivial
  · exact gives_bind fun start => gives_bind fun stop => gives_pure trivial
  · exact gives_pure trivial
  · exact gives_pure trivial
  · exact gives_fail

theorem Eval.gives_call (draws : Nat → Number) (store : Store) (loc : Option Location)
    (b : Builtin) (args : List Value) : Gives Value.IsAtomic (call draws store loc b args) := by
  rw [call]
  split
  · intro n v n' ran
    simp only [Action.onPart] at ran
    split at ran
    · next applied =>
      cases ran
      exact b.gives_apply draws store.arrays args applied
    · cases ran
  · exact gives_fail

/-- What a variable or an element of an array holds. -/
inductive Store.Holds (s : Store) (v : Value) : Prop where
  | bound {name : Text} (found : s.bindings.find? name = some v)
  | element {id slot : Nat} (found : (s.arrays.elements id)[slot]? = some v)

/-- A value names an array only if that array is there. -/
def Value.IsKnown (a : Arrays) (v : Value) : Prop := ∀ id, v = .array id → id < a.cells.size

theorem Value.IsAtomic.isKnown {v : Value} (h : v.IsAtomic) (a : Arrays) : v.IsKnown a := by
  rintro id rfl
  exact h.elim

/-- All arrays that a store holds are there. -/
def Store.IsClosed (s : Store) : Prop := ∀ v, s.Holds v → v.IsKnown s.arrays

/-- An array that is the value of an expression is held. -/
theorem Expr.isKnown_of_eval {draws : Nat → Number} {store : Store} (closed : store.IsClosed)
    (e : Expr) : Gives (Value.IsKnown store.arrays) (e.eval draws store) := by
  have atomic {v : Value} (h : v.IsAtomic) : v.IsKnown store.arrays := h.isKnown store.arrays
  cases e with
  | text | number | boolean =>
    rw [eval]
    exact gives_pure (atomic trivial)
  | name loc name =>
    rw [eval]
    split
    · next v found =>
      rw [Store.get?] at found
      split at found
      · cases found
        exact gives_pure (atomic trivial)
      · exact gives_pure (closed v (.bound found))
    · exact gives_fail
  | unary loc op e =>
    rw [eval]
    refine gives_bind fun v n w n' ran => ?_
    exact atomic ((Eval.atomicResult_unary op v).of_ok (Eval.located_eq_ok ran).1)
  | binary loc op a b =>
    rw [eval]
    refine gives_bind fun lhs => gives_bind fun rhs n w n' ran => ?_
    exact atomic ((Eval.atomicResult_binary _ op lhs rhs).of_ok (Eval.located_eq_ok ran).1)
  | element loc name index =>
    rw [eval]
    refine gives_bind fun id => gives_bind fun i => gives_bind fun slot => gives_pure ?_
    rw [Array.getD_eq_getD_getElem?]
    cases held : (store.arrays.elements id)[slot]? with
    | none => exact atomic trivial
    | some v => exact closed v (.element held)
  | call loc name args =>
    rw [eval]
    split
    · exact gives_fail
    · next b _ =>
      refine gives_bind fun vs n v n' ran => ?_
      exact atomic (Eval.gives_call draws store loc b vs ran)

theorem Arrays.elements_allocate (a : Arrays) (cells : Array Value) (i : Nat) :
    (a.allocate cells).1.elements i = if i = a.cells.size then cells else a.elements i := by
  simp only [allocate, elements, Array.getD_eq_getD_getElem?, Array.getElem?_push]
  split
  · rfl
  · rfl

namespace Store

theorem isClosed_empty : empty.IsClosed := by
  rintro v (found | found)
  · cases found
  · cases found

namespace IsClosed

variable {s : Store}

/-- A store stays closed when a variable is bound to a known value. -/
theorem bind (closed : s.IsClosed) (name : Text) {v : Value} (known : v.IsKnown s.arrays) :
    IsClosed { s with bindings := s.bindings.insert name v } := by
  rintro w (found | found)
  · rw [Variables.find?_insert] at found
    split at found
    · cases found
      exact known
    · exact closed w (.bound found)
  · exact closed w (.element found)

/-- A store stays closed when an element becomes a known value. -/
theorem store (closed : s.IsClosed) (id slot : Nat) {v : Value} (known : v.IsKnown s.arrays) :
    IsClosed { s with arrays := s.arrays.store id slot v } := by
  have count : (s.arrays.store id slot v).cells.size = s.arrays.cells.size := Array.size_modify
  have within {w : Value} (h : w.IsKnown s.arrays) : w.IsKnown (s.arrays.store id slot v) :=
    fun i same => (h i same).trans_eq count.symm
  rintro w (found | @⟨i, k, found⟩)
  · exact within (closed w (.bound found))
  · rw [Arrays.elements_store] at found
    split at found
    · rw [Array.getElem?_setIfInBounds] at found
      split at found
      · split at found
        · cases found
          exact within known
        · cases found
      · exact within (closed w (.element found))
    · exact within (closed w (.element found))

/-- A store stays closed when a new array of values that are no arrays is bound. -/
theorem allocate (closed : s.IsClosed) (name : Text) (size : Nat) :
    IsClosed ⟨s.bindings.insert name (.array s.arrays.cells.size),
      (s.arrays.allocate (.replicate size .uninitialized)).1⟩ := by
  have within {w : Value} (h : w.IsKnown s.arrays) :
      w.IsKnown (s.arrays.allocate (.replicate size .uninitialized)).1 :=
    fun i same => (h i same).trans_le (by simp [Arrays.allocate])
  rintro w (found | @⟨i, k, found⟩)
  · rw [Variables.find?_insert] at found
    split at found
    · cases found
      rintro i same
      cases same
      simp [Arrays.allocate]
    · exact within (closed w (.bound found))
  · rw [Arrays.elements_allocate] at found
    split at found
    · rw [Array.getElem?_replicate] at found
      split at found
      · cases found
        exact Value.IsAtomic.isKnown (v := .uninitialized) trivial _
      · cases found
    · exact within (closed w (.element found))

end IsClosed

end Store

namespace Arrays

/-- The lengths of all arrays, in the order of their creation. -/
def sizes (a : Arrays) : List Nat := a.cells.toList.map Array.size

variable (a : Arrays)

theorem length_sizes : a.sizes.length = a.cells.size := by
  rw [sizes, List.length_map, Array.length_toList]

theorem size_elements (id : Nat) : (a.elements id).size = a.sizes[id]?.getD 0 := by
  rw [elements, Array.getD_eq_getD_getElem?, sizes, List.getElem?_map, Array.getElem?_toList]
  cases a.cells[id]? with
  | none => rfl
  | some cells => rfl

theorem sizes_allocate (cells : Array Value) :
    (a.allocate cells).1.sizes = a.sizes ++ [cells.size] := by
  simp [allocate, sizes]

theorem sizes_store (id slot : Nat) (v : Value) : (a.store id slot v).sizes = a.sizes := by
  refine List.ext_getElem? fun i => ?_
  rw [sizes, sizes, List.getElem?_map, List.getElem?_map, Array.getElem?_toList,
    Array.getElem?_toList, store, Array.getElem?_modify]
  split
  · cases a.cells[i]? with
    | none => rfl
    | some cells => exact congrArg some Array.size_setIfInBounds
  · rfl

end Arrays

theorem Run.store_of_evaluating {α : Type} {x : Store → Eval α} {m m' : Machine}
    {r : Except Halt α} (ran : evaluating x m = (r, m')) : m'.store = m.store := by
  simp only [evaluating] at ran
  split at ran
  · cases ran
    rfl
  · cases ran
    rfl

theorem Run.store_of_bindVariable {loc : Option Location} {name : Text} {v : Value}
    {m m' : Machine} {r : Except Halt Unit} (ran : bindVariable loc name v m = (r, m')) :
    m'.store = m.store ∨
      m'.store = { m.store with bindings := m.store.bindings.insert name v } := by
  rcases r with halt | _
  · simp only [bindVariable] at ran
    split at ran
    · cases ran
    · cases ran
      exact .inl rfl
  · cases bindVariable_eq_ok ran
    exact .inr rfl

namespace Effect

/-- The effects that change the store. -/
def stores {α : Type} : Effect α → Bool
  | bindVariable .. | bindArray .. | storeElement .. => true
  | _ => false

/-- The length of the array that an effect creates. -/
def created? {α : Type} : Effect α → Option Nat
  | bindArray _ size => some size
  | _ => none

variable {α : Type} {host : Host} {m m' : Machine} {effect : Effect α} {r : Except Halt α}

theorem store_of_perform (leaves : effect.stores = false)
    (ran : effect.perform host m = (r, m')) : m'.store = m.store := by
  cases effect with
  | checkpoint loc =>
    simp only [perform, Run.checkpoint] at ran
    split at ran
    · cases ran
      rfl
    · split at ran
      · cases ran
        rfl
      · cases ran
        rfl
  | value e => exact Run.store_of_evaluating (x := fun store => e.eval host.draws store) ran
  | declaredSize loc name size =>
    exact Run.store_of_evaluating (x := Run.declaredSize host loc name size) ran
  | elementTarget loc name index e =>
    exact Run.store_of_evaluating (x := Run.elementTarget host loc name index e) ran
  | printedLine exprs => exact Run.store_of_evaluating (x := Run.printedLine host exprs) ran
  | writeLine loc line =>
    simp only [perform, Run.writeLine] at ran
    split at ran
    · cases ran
      rfl
    · cases ran
      rfl
  | readLine loc name =>
    simp only [perform, Run.readLine] at ran
    split at ran
    · cases ran
      rfl
    · cases ran
      rfl
  | bindVariable | bindArray | storeElement => cases leaves

/-- An effect adds the array that it creates and leaves all lengths as they are. -/
theorem sizes_of_perform (ran : effect.perform host m = (r, m')) :
    m'.store.arrays.sizes = m.store.arrays.sizes ++ effect.created?.toList := by
  have unchanged (same : m'.store.arrays.sizes = m.store.arrays.sizes) :
      m'.store.arrays.sizes = m.store.arrays.sizes ++ [] := same.trans (List.append_nil _).symm
  cases effect with
  | bindArray name size =>
    cases ran
    refine (Arrays.sizes_allocate _ _).trans ?_
    rw [Array.size_replicate]
    rfl
  | storeElement id slot v =>
    cases ran
    exact unchanged (Arrays.sizes_store _ id slot v)
  | bindVariable loc name v =>
    rcases Run.store_of_bindVariable ran with same | same
    · exact unchanged (by rw [same])
    · exact unchanged (by rw [same])
  | _ => exact unchanged (by rw [store_of_perform rfl ran])

end Effect

/-- All arrays that the store of a state holds are there. -/
def Machine.IsClosed (m : Machine) : Prop := m.store.IsClosed

namespace Effect

variable {α : Type} {host : Host} {m m' : Machine}

/-- After an effect the store is still closed. -/
def KeepsClosed (host : Host) (m : Machine) (effect : Effect α) : Prop :=
  ∀ r m', effect.perform host m = (r, m') → m'.IsClosed ∧ True

theorem keepsClosed_of_leaves {effect : Effect α} (leaves : effect.stores = false)
    (closed : m.IsClosed) : effect.KeepsClosed host m := by
  intro r m' ran
  rw [Machine.IsClosed, store_of_perform leaves ran]
  exact ⟨closed, trivial⟩

theorem keepsClosed_bindVariable {loc : Option Location} {name : Text} {v : Value}
    (known : v.IsKnown m.store.arrays) (closed : m.IsClosed) :
    (bindVariable loc name v).KeepsClosed host m := by
  intro r m' ran
  rw [Machine.IsClosed]
  rcases Run.store_of_bindVariable ran with same | same
  · rw [same]
    exact ⟨closed, trivial⟩
  · rw [same]
    exact ⟨Store.IsClosed.bind closed name known, trivial⟩

theorem keepsClosed_bindArray {name : Text} {size : Nat} (closed : m.IsClosed) :
    (bindArray name size).KeepsClosed host m := by
  intro r m' ran
  cases ran
  exact ⟨Store.IsClosed.allocate closed name size, trivial⟩

theorem keepsClosed_storeElement {id slot : Nat} {v : Value} (known : v.IsKnown m.store.arrays)
    (closed : m.IsClosed) : (storeElement id slot v).KeepsClosed host m := by
  intro r m' ran
  cases ran
  exact ⟨Store.IsClosed.store closed id slot known, trivial⟩

theorem isKnown_of_value {e : Expr} {v : Value} (closed : m.IsClosed)
    (ran : (value e).perform host m = (.ok v, m')) : v.IsKnown m.store.arrays := by
  obtain ⟨drawn, evaluated, _⟩ :=
    Run.evaluating_eq_ok (x := fun store => e.eval host.draws store) ran
  exact e.isKnown_of_eval closed evaluated

theorem isKnown_of_elementTarget {loc : Option Location} {name : Text} {index e : Expr}
    {target : Nat × Nat × Value} (closed : m.IsClosed)
    (ran : (elementTarget loc name index e).perform host m = (.ok target, m')) :
    target.2.2.IsKnown m.store.arrays := by
  obtain ⟨drawn, found, _⟩ := Run.evaluating_eq_ok ran
  have known : Gives (fun target : Nat × Nat × Value => target.2.2.IsKnown m.store.arrays)
      (Run.elementTarget host loc name index e m.store) := by
    refine gives_bind fun id => gives_bind fun i => gives_bind fun slot => ?_
    intro n target n' ran
    obtain ⟨v, n₁, evaluated, rest⟩ := Action.bind_eq_ok.1 ran
    cases rest
    exact e.isKnown_of_eval closed evaluated
  exact known found

end Effect

open Effect (keepsClosed_of_leaves keepsClosed_bindVariable keepsClosed_bindArray
  keepsClosed_storeElement isKnown_of_value isKnown_of_elementTarget)

/-- Every statement keeps the store closed. -/
theorem closed_isClosed (host : Host) :
    Script.Closed (fun _ => True) (Script.Upholds host Machine.IsClosed fun _ => True) where
  pure := .pure
  exhausted := .exhausted
  bind := .bind
  checkpoint _ _ closed := .perform (keepsClosed_of_leaves rfl closed)
  value _ _ _ closed := .perform (keepsClosed_of_leaves rfl closed)
  assign _ m closed := by
    refine .act (keepsClosed_of_leaves rfl closed) fun v m' ran => ?_
    have known := isKnown_of_value closed ran
    have kept := (keepsClosed_of_leaves rfl closed _ _ ran).1
    rw [← Effect.store_of_perform rfl ran] at known
    exact .perform (keepsClosed_bindVariable known kept)
  dimension _ m closed := by
    refine .act (keepsClosed_of_leaves rfl closed) fun n m' ran => ?_
    exact .perform (keepsClosed_bindArray (keepsClosed_of_leaves rfl closed _ _ ran).1)
  assignElement _ m closed := by
    refine .act (keepsClosed_of_leaves rfl closed) fun target m' ran => ?_
    have known := isKnown_of_elementTarget closed ran
    have kept := (keepsClosed_of_leaves rfl closed _ _ ran).1
    rw [← Effect.store_of_perform rfl ran] at known
    exact .perform (keepsClosed_storeElement known kept)
  print _ m closed := by
    refine .act (keepsClosed_of_leaves rfl closed) fun line m' ran => ?_
    exact .perform (keepsClosed_of_leaves rfl (keepsClosed_of_leaves rfl closed _ _ ran).1)
  read _ _ m closed := by
    refine .act (keepsClosed_of_leaves rfl closed) fun line m' ran => ?_
    exact .perform (keepsClosed_bindVariable ((Value.isAtomic_ofInput line).isKnown _)
      (keepsClosed_of_leaves rfl closed _ _ ran).1)
  count {_ _ _ _ _ _} _ counter _ closed :=
    .perform (keepsClosed_bindVariable (Value.IsAtomic.isKnown (v := .number counter) trivial _)
      closed)

end Pseudocode

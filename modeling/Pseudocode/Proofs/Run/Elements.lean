import Pseudocode.Proofs.Number.Value
import Pseudocode.Proofs.Run.Effects

/-!
# Elements of arrays

An element is come to through the name of an array and an index, which must be an integer from one
up to the length. The check is made on doubles, the length too is made one, and only then is the
index made a slot. For lengths that doubles hold exactly, what passes the check are the integers in
the range, and the slot is within the array.

An assignment comes to its element before its value is computed and stores the value after that. It
changes one slot of one array, and every name of the array sees the change.
-/

namespace Pseudocode

/-- A value is an integer from one up to a length, and stands for a slot. -/
def Value.Indexes (v : Value) (length slot : Nat) : Prop :=
  ∃ x : Number, v = .number x ∧ x.value? = some ((slot + 1 : Nat) : ℚ) ∧ slot < length

/-- Lengths up to two to the power of 53, each of which is a number. -/
def Arrays.AreExact (a : Arrays) : Prop := ∀ id, (a.elements id).size ≤ 9007199254740992

namespace Eval

variable {store : Store} {name : Text}

theorem arrayNamed_eq_ok {id : Nat} :
    arrayNamed store name = .ok id ↔ store.get? name = some (.array id) := by
  rw [arrayNamed]
  split
  · next none => simp [none]
  · next found => simp [found]
  · next v other found =>
    rw [found]
    constructor
    · intro failed
      cases failed
    · intro same
      exact absurd (Option.some.inj same) (other id)

theorem slotAt_eq_ok (exact : store.arrays.AreExact) {id slot : Nat} {index : Value} :
    slotAt store name id index = .ok slot ↔
      index.Indexes (store.arrays.elements id).size slot := by
  cases index with
  | number x =>
    have between := Number.isIntegral_between_iff (x := x) (by decide : 1 ≤ 9007199254740992)
      (exact id)
    rw [← Number.one_eq_ofNat] at between
    constructor
    · intro ok
      rw [slotAt] at ok
      split at ok
      · cases ok
      · next integral =>
        split at ok
        · cases ok
        · next within =>
          obtain ⟨above, below⟩ := not_or.1 within
          obtain ⟨n, value, least, most⟩ := between.1 ⟨by simpa using integral, above, below⟩
          rw [(Number.isIntegral_of_value? value).2] at ok
          obtain rfl := Except.ok.inj ok
          refine ⟨x, rfl, ?_, by omega⟩
          rw [value, Nat.sub_add_cancel least]
    · rintro ⟨y, same, value, within⟩
      cases same
      obtain ⟨integral, above, below⟩ := between.2 ⟨slot + 1, value, by omega, within⟩
      rw [slotAt, if_neg (by simp [integral]), if_neg (not_or.2 ⟨above, below⟩),
        (Number.isIntegral_of_value? value).2, Nat.add_sub_cancel]
  | uninitialized | text | boolean | array | foreign =>
    constructor
    · intro failed
      cases failed
    · rintro ⟨x, other, _⟩
      cases other

end Eval

namespace Run

/-- The size of an array is a natural number, and at most the limit. -/
theorem arraySize_eq_ok {host : Host} (limit : host.maxArraySize ≤ 9007199254740992) {store : Store}
    {name : Text} {size : Value} {n : Nat} :
    arraySize host store name size = .ok n ↔
      ∃ x : Number, size = .number x ∧ x.value? = some (n : ℚ) ∧ n ≤ host.maxArraySize := by
  cases size with
  | number x =>
    have between := Number.isIntegral_between_iff (x := x) (by decide : 0 ≤ 9007199254740992) limit
    rw [← Number.zero_eq_ofNat] at between
    constructor
    · intro ok
      rw [arraySize] at ok
      split at ok
      · cases ok
      · next whole =>
        obtain ⟨above, integral⟩ := not_or.1 whole
        split at ok
        · cases ok
        · next below =>
          obtain ⟨k, value, _, most⟩ := between.1 ⟨by simpa using integral, above, below⟩
          rw [(Number.isIntegral_of_value? value).2] at ok
          obtain rfl := Except.ok.inj ok
          exact ⟨x, rfl, value, most⟩
    · rintro ⟨y, same, value, most⟩
      cases same
      obtain ⟨integral, above, below⟩ := between.2 ⟨n, value, Nat.zero_le n, most⟩
      rw [arraySize, if_neg (not_or.2 ⟨above, by simp [integral]⟩), if_neg below,
        (Number.isIntegral_of_value? value).2]
  | uninitialized | text | boolean | array | foreign =>
    constructor
    · intro failed
      cases failed
    · rintro ⟨x, other, _⟩
      cases other

end Run

section Access

variable {draws : Nat → Number} {store : Store} {loc : Option Location} {name : Text}
  {index : Expr} {n n' : Nat}

/-- An element is not there to be read or assigned: its name is not that of an array, its index has
no value, or the value of its index is no integer in the range. -/
def Unreachable (draws : Nat → Number) (store : Store) (name : Text) (index : Expr) (n : Nat) :
    Prop :=
  (∀ id, store.get? name ≠ some (.array id)) ∨ (∃ e, (index.eval draws store n).1 = .error e) ∨
    ∃ id v, store.get? name = some (.array id) ∧ (index.eval draws store n).1 = .ok v ∧
      ∀ slot, ¬ v.Indexes (store.arrays.elements id).size slot

/-- An element of an array is come to: its slot, and how many random numbers were drawn by then. -/
def Designates (draws : Nat → Number) (store : Store) (name : Text) (index : Expr) (n : Nat)
    (id slot n' : Nat) : Prop :=
  store.get? name = some (.array id) ∧ ∃ v, index.eval draws store n = (.ok v, n') ∧
    v.Indexes (store.arrays.elements id).size slot

/-- An element is come to, or it is not there. -/
theorem designates_or_unreachable (draws : Nat → Number) (store : Store) (name : Text)
    (index : Expr) (n : Nat) :
    (∃ id slot n', Designates draws store name index n id slot n') ∨
      Unreachable draws store name index n := by
  by_cases named : ∃ id, store.get? name = some (.array id)
  · obtain ⟨id, named⟩ := named
    rcases evaluated : index.eval draws store n with ⟨e | v, n'⟩
    · exact .inr (.inr (.inl ⟨e, congrArg Prod.fst evaluated⟩))
    · by_cases inRange : ∃ slot, v.Indexes (store.arrays.elements id).size slot
      · obtain ⟨slot, inRange⟩ := inRange
        exact .inl ⟨id, slot, n', named, v, evaluated, inRange⟩
      · exact .inr (.inr (.inr ⟨id, v, named, congrArg Prod.fst evaluated, not_exists.1 inRange⟩))
  · exact .inr (.inl (not_exists.1 named))

theorem Designates.not_unreachable {id slot : Nat}
    (h : Designates draws store name index n id slot n') :
    ¬ Unreachable draws store name index n := by
  obtain ⟨named, v, evaluated, inRange⟩ := h
  rintro (unnamed | ⟨e, failed⟩ | ⟨id', v', named', evaluated', outside⟩)
  · exact unnamed id named
  · rw [evaluated] at failed
    cases failed
  · rw [named] at named'
    rw [evaluated] at evaluated'
    cases named'
    cases evaluated'
    exact outside slot inRange

/-- Come to an element and go on from there. -/
def Eval.reaching {α : Type} (draws : Nat → Number) (store : Store) (loc : Option Location)
    (name : Text) (index : Expr) (next : Nat → Nat → Eval α) : Eval α := do
  let id ← Eval.located loc (Eval.arrayNamed store name)
  let i ← index.eval draws store
  let slot ← Eval.located loc (Eval.slotAt store name id i)
  next id slot

variable {α : Type} {next : Nat → Nat → Eval α}

theorem Eval.reaching_of_designates (exact : store.arrays.AreExact) {id slot : Nat}
    (h : Designates draws store name index n id slot n') :
    reaching draws store loc name index next n = next id slot n' := by
  obtain ⟨named, v, evaluated, inRange⟩ := h
  have array : located loc (arrayNamed store name) n = (.ok id, n) := by
    rw [arrayNamed_eq_ok.2 named]
    rfl
  have position : located loc (slotAt store name id v) n' = (.ok slot, n') := by
    rw [(slotAt_eq_ok exact).2 inRange]
    rfl
  rw [reaching, Action.bind_of_ok array, Action.bind_of_ok evaluated, Action.bind_of_ok position]

theorem Eval.reaching_of_unreachable (loc : Option Location) (next : Nat → Nat → Eval α)
    (exact : store.arrays.AreExact) (h : Unreachable draws store name index n) :
    ∃ e n', reaching draws store loc name index next n = (.error e, n') := by
  rcases ran : reaching draws store loc name index next n with ⟨e | a, n'⟩
  · exact ⟨e, n', rfl⟩
  · obtain ⟨id, n₁, array, ran⟩ := Action.bind_eq_ok.1 ran
    obtain ⟨i, n₂, evaluated, ran⟩ := Action.bind_eq_ok.1 ran
    obtain ⟨slot, n₃, position, _⟩ := Action.bind_eq_ok.1 ran
    obtain ⟨named, rfl⟩ := located_eq_ok array
    obtain ⟨inRange, rfl⟩ := located_eq_ok position
    have designates : Designates draws store name index n₁ id slot n₃ :=
      ⟨arrayNamed_eq_ok.1 named, i, evaluated, (slotAt_eq_ok exact).1 inRange⟩
    exact (designates.not_unreachable h).elim

theorem Expr.eval_element : (Expr.element loc name index).eval draws store =
    Eval.reaching draws store loc name index fun id slot =>
      pure ((store.arrays.elements id).getD slot .uninitialized) := by
  rw [eval]
  rfl

/-- Reading an element that is come to gives what is in its slot. -/
theorem Expr.eval_element_of_designates (exact : store.arrays.AreExact) {id slot : Nat}
    (h : Designates draws store name index n id slot n') {v : Value}
    (held : (store.arrays.elements id)[slot]? = some v) :
    (Expr.element loc name index).eval draws store n = (.ok v, n') := by
  rw [eval_element, Eval.reaching_of_designates exact h, Array.getD_eq_getD_getElem?, held]
  rfl

theorem Designates.slot_lt {id slot : Nat} (h : Designates draws store name index n id slot n') :
    slot < (store.arrays.elements id).size := by
  obtain ⟨_, _, _, _, _, _, inRange⟩ := h
  exact inRange

theorem Designates.exists_held {id slot : Nat}
    (h : Designates draws store name index n id slot n') :
    ∃ v, (store.arrays.elements id)[slot]? = some v :=
  ⟨_, Array.getElem?_eq_getElem h.slot_lt⟩

/-- Reading fails exactly where there is no element. -/
theorem Expr.eval_element_fails_iff (loc : Option Location) (exact : store.arrays.AreExact) :
    (∃ e n', (Expr.element loc name index).eval draws store n = (.error e, n')) ↔
      Unreachable draws store name index n := by
  constructor
  · rintro ⟨e, n', failed⟩
    rcases designates_or_unreachable draws store name index n with ⟨id, slot, n₁, h⟩ | h
    · obtain ⟨v, held⟩ := h.exists_held
      rw [eval_element_of_designates exact h held] at failed
      cases failed
    · exact h
  · intro h
    rw [eval_element]
    exact Eval.reaching_of_unreachable loc _ exact h

/-- Reading succeeds only where there is an element, and gives what is in its slot. -/
theorem Expr.eval_element_eq_ok (exact : store.arrays.AreExact) {v : Value}
    (ran : (Expr.element loc name index).eval draws store n = (.ok v, n')) :
    ∃ id slot, Designates draws store name index n id slot n' ∧
      (store.arrays.elements id)[slot]? = some v := by
  rcases designates_or_unreachable draws store name index n with ⟨id, slot, n₁, h⟩ | h
  · obtain ⟨w, held⟩ := h.exists_held
    rw [eval_element_of_designates exact h held] at ran
    cases ran
    exact ⟨id, slot, h, held⟩
  · obtain ⟨e, n₁, failed⟩ := (eval_element_fails_iff loc exact).2 h
    rw [failed] at ran
    cases ran

end Access

theorem Arrays.elements_store (a : Arrays) (id slot : Nat) (v : Value) (i : Nat) :
    (a.store id slot v).elements i =
      if id = i then (a.elements i).setIfInBounds slot v else a.elements i := by
  simp only [store, elements, Array.getD_eq_getD_getElem?, Array.getElem?_modify]
  split
  · cases a.cells[i]? with
    | none => simp
    | some cells => rfl
  · rfl

/-- Of two stores the second has a value in one slot, and is the first in everything else: the other
slots of the array, all other arrays, and the variables. -/
structure Store.WritesOnly (s s' : Store) (id slot : Nat) (v : Value) : Prop where
  bindings : s'.bindings = s.bindings
  count : s'.arrays.cells.size = s.arrays.cells.size
  sizes : ∀ i, (s'.arrays.elements i).size = (s.arrays.elements i).size
  written : (s'.arrays.elements id)[slot]? = some v
  others : ∀ i k, (i, k) ≠ (id, slot) →
    (s'.arrays.elements i)[k]? = (s.arrays.elements i)[k]?

theorem Store.writesOnly_store {s : Store} {id slot : Nat}
    (inRange : slot < (s.arrays.elements id).size) (v : Value) :
    s.WritesOnly { s with arrays := s.arrays.store id slot v } id slot v := by
  refine ⟨rfl, Array.size_modify, fun i => ?_, ?_, fun i k other => ?_⟩
  · rw [Arrays.elements_store]
    split
    · exact Array.size_setIfInBounds
    · rfl
  · rw [Arrays.elements_store, if_pos rfl, Array.getElem?_setIfInBounds_self_of_lt inRange]
  · rw [Arrays.elements_store]
    split
    · next same =>
      subst same
      have apart : slot ≠ k := fun same => other (by rw [same])
      exact Array.getElem?_setIfInBounds_ne apart
    · rfl

/-- What an assignment to an element does behind its checkpoint. -/
def Run.assignElement (host : Host) (loc : Option Location) (name : Text) (index e : Expr) :
    Run Unit := do
  let (id, slot, v) ← evaluating (elementTarget host loc name index e)
  storeElement id slot v

theorem Stmt.exec_assignElement {host : Host} {turns : Nat} {loc : Option Location} {name : Text}
    {index e : Expr} : (Stmt.assignElement loc name index e).exec host turns =
      Run.checkpoint host loc >>= fun _ => Run.assignElement host loc name index e := by
  rw [exec]
  rfl

section Assignment

variable {host : Host} {loc : Option Location} {name : Text} {index e : Expr} {m m' : Machine}

theorem Run.elementTarget_eq (host : Host) (loc : Option Location) (name : Text) (index e : Expr)
    (store : Store) : elementTarget host loc name index e store =
      Eval.reaching host.draws store loc name index fun id slot =>
        e.eval host.draws store >>= fun v => pure (id, slot, v) := rfl

/-- The value of an assignment is computed behind the bounds check and then stored. -/
theorem Run.assignElement_of_ok (exact : m.store.arrays.AreExact) {id slot n n' : Nat} {v : Value}
    (h : Designates host.draws m.store name index m.channels.drawn id slot n)
    (value : e.eval host.draws m.store n = (.ok v, n')) :
    assignElement host loc name index e m =
      (.ok (), { m with
        store.arrays := m.store.arrays.store id slot v
        channels.drawn := n' }) := by
  have target : elementTarget host loc name index e m.store m.channels.drawn =
      (.ok (id, slot, v), n') := by
    rw [elementTarget_eq, Eval.reaching_of_designates exact h, Action.bind_of_ok value]
    rfl
  have found : evaluating (elementTarget host loc name index e) m =
      (.ok (id, slot, v), { m with channels.drawn := n' }) := by
    simp only [evaluating, target]
  rw [assignElement, Action.bind_of_ok found]
  rfl

theorem Run.assignElement_of_error {err : RuntimeError} {n' : Nat}
    (target : elementTarget host loc name index e m.store m.channels.drawn = (.error err, n')) :
    assignElement host loc name index e m =
      (.error (.failed err), { m with channels.drawn := n' }) := by
  have failed : evaluating (elementTarget host loc name index e) m =
      (.error (.failed err), { m with channels.drawn := n' }) := by
    simp only [evaluating, target]
  rw [assignElement, Action.bind_of_error failed]

/-- An element cannot be assigned: it is not there, or its new value cannot be computed. -/
def Unassignable (host : Host) (name : Text) (index e : Expr) (m : Machine) : Prop :=
  Unreachable host.draws m.store name index m.channels.drawn ∨
    ∃ id slot n, Designates host.draws m.store name index m.channels.drawn id slot n ∧
      ∃ err n', e.eval host.draws m.store n = (.error err, n')

theorem Run.assignElement_of_unassignable (loc : Option Location)
    (exact : m.store.arrays.AreExact) (h : Unassignable host name index e m) :
    ∃ err n', assignElement host loc name index e m =
      (.error (.failed err), { m with channels.drawn := n' }) := by
  rcases h with h | ⟨id, slot, n, h, err, n', failed⟩
  · obtain ⟨err, n', failed⟩ := Eval.reaching_of_unreachable loc
      (fun id slot => e.eval host.draws m.store >>= fun v => pure (id, slot, v)) exact h
    exact ⟨err, n', assignElement_of_error failed⟩
  · refine ⟨err, n', assignElement_of_error ?_⟩
    rw [elementTarget_eq, Eval.reaching_of_designates exact h, Action.bind_of_error failed]

/-- Where an assignment is possible it is done. -/
theorem assignable_or_unassignable (host : Host) (name : Text) (index e : Expr) (m : Machine) :
    (∃ id slot n v n', Designates host.draws m.store name index m.channels.drawn id slot n ∧
      e.eval host.draws m.store n = (.ok v, n')) ∨ Unassignable host name index e m := by
  rcases designates_or_unreachable host.draws m.store name index m.channels.drawn with
    ⟨id, slot, n, h⟩ | h
  · rcases value : e.eval host.draws m.store n with ⟨err | v, n'⟩
    · exact .inr (.inr ⟨id, slot, n, h, err, n', value⟩)
    · exact .inl ⟨id, slot, n, v, n', h, value⟩
  · exact .inr (.inl h)

end Assignment

/-- The bounds law in a state. Reading an element fails exactly where there is none, and gives what
is in its slot, which is in range. Assigning fails exactly where there is no element or its new
value cannot be computed, and leaves the store as it was; otherwise it writes one slot and nothing
else, and whatever way leads to that slot finds the new value there. -/
structure Machine.BoundsLaw (host : Host) (m : Machine) : Prop where
  reading_fails : ∀ loc name index n,
    (∃ err n', (Expr.element loc name index).eval host.draws m.store n = (.error err, n')) ↔
      Unreachable host.draws m.store name index n
  reads : ∀ loc name index n v n',
    (Expr.element loc name index).eval host.draws m.store n = (.ok v, n') →
      ∃ id slot, Designates host.draws m.store name index n id slot n' ∧
        (m.store.arrays.elements id)[slot]? = some v
  assigning_fails : ∀ loc name index e,
    (∃ halt m', Run.assignElement host loc name index e m = (.error halt, m')) ↔
      Unassignable host name index e m
  keeps : ∀ loc name index e halt m',
    Run.assignElement host loc name index e m = (.error halt, m') → m'.store = m.store
  assigns : ∀ loc name index e m', Run.assignElement host loc name index e m = (.ok (), m') →
    ∃ id slot n v n', Designates host.draws m.store name index m.channels.drawn id slot n ∧
      e.eval host.draws m.store n = (.ok v, n') ∧
      m' = { m with store := m'.store, channels.drawn := n' } ∧
      m.store.WritesOnly m'.store id slot v ∧
      ∀ loc other i k k', Designates host.draws m'.store other i k id slot k' →
        (Expr.element loc other i).eval host.draws m'.store k = (.ok v, k')

/-- The bounds law holds wherever the lengths of the arrays are exact. -/
theorem Machine.boundsLaw_of_areExact (host : Host) {m : Machine}
    (exact : m.store.arrays.AreExact) : m.BoundsLaw host where
  reading_fails loc _ _ _ := Expr.eval_element_fails_iff loc exact
  reads _ _ _ _ _ _ := Expr.eval_element_eq_ok exact
  assigning_fails loc name index e := by
    constructor
    · rintro ⟨halt, m', failed⟩
      rcases assignable_or_unassignable host name index e m with ⟨id, slot, n, v, n', h, value⟩ | h
      · rw [Run.assignElement_of_ok exact h value] at failed
        cases failed
      · exact h
    · intro h
      obtain ⟨err, n', failed⟩ := Run.assignElement_of_unassignable loc exact h
      exact ⟨_, _, failed⟩
  keeps loc name index e halt m' failed := by
    rcases assignable_or_unassignable host name index e m with ⟨id, slot, n, v, n', h, value⟩ | h
    · rw [Run.assignElement_of_ok exact h value] at failed
      cases failed
    · obtain ⟨err, n', same⟩ := Run.assignElement_of_unassignable loc exact h
      rw [same] at failed
      cases failed
      rfl
  assigns loc name index e m' ran := by
    rcases assignable_or_unassignable host name index e m with ⟨id, slot, n, v, n', h, value⟩ | h
    · rw [Run.assignElement_of_ok exact h value] at ran
      cases ran
      have writes := Store.writesOnly_store h.slot_lt v
      refine ⟨id, slot, n, v, n', h, value, rfl, writes, fun loc other i k k' way => ?_⟩
      exact Expr.eval_element_of_designates (fun i => (writes.sizes i).trans_le (exact i)) way
        writes.written
    · obtain ⟨err, n', failed⟩ := Run.assignElement_of_unassignable loc exact h
      rw [failed] at ran
      cases ran

end Pseudocode

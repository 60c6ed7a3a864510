import Pseudocode.Proofs.Run.Dimensions

/-!
# The names of a run

All variables of a run are in one set of names. An effect adds at most one name to it and takes none
away, so a name that is bound stays bound. A name gets there by a statement that has it as the name
to be bound, and not if it is that of a constant; a dimension moreover asks whether the name is
bound already, constants included, and nothing is bound between the question and the answer.
-/

namespace Pseudocode

namespace Variables

theorem mem_names_iff {vs : Variables} {x : Text} : x ∈ vs.names ↔ (vs.find? x).isSome = true := by
  have each (entries : List (Text × Value)) :
      x ∈ entries.map (·.1) ↔ (entries.lookup x).isSome = true := by
    induction entries with
    | nil => simp
    | cons head rest ih =>
      obtain ⟨n, v⟩ := head
      rw [lookup_cons_eq, List.map_cons, List.mem_cons, ih]
      split
      · next same => simp [same]
      · next differs => simp [differs]
  exact each vs.entries

theorem mem_names_insert {vs : Variables} {name : Text} {v : Value} {x : Text} :
    x ∈ (vs.insert name v).names ↔ x ∈ vs.names ∨ name = x := by
  rw [mem_names_iff, find?_insert, mem_names_iff]
  split
  · next same => simp [same]
  · next differs => simp [Ne.symm differs]

theorem pairwise_names (vs : Variables) : vs.names.Pairwise (· < ·) :=
  List.pairwise_map.2 vs.sorted

end Variables

/-- The names that a statement puts into the set itself. An assignment to an element puts none
there. -/
def Stmt.binds : Stmt → List Text
  | .assign _ name _ | .dimension _ name _ | .forLoop _ name _ _ _ _ => [name]
  | .read _ targets => targets.map Target.name
  | .assignElement _ _ _ _ | .print _ _ | .branch _ _ _ _ | .select _ _ _ _ | .whileLoop _ _ _
  | .repeatLoop _ _ _ => []

/-- The names that are bound. -/
def Machine.names (m : Machine) : List Text := m.store.bindings.names

/-- The name that an effect binds. -/
def Effect.bound? {α : Type} : Effect α → Option Text
  | bindVariable _ name _ | bindArray name _ => some name
  | _ => none

namespace Effect

variable {α : Type} {host : Host} {m m' : Machine} {effect : Effect α} {r : Except Halt α}
  {x : Text}

/-- An effect adds the name that it binds, if it succeeds, and takes none away. -/
theorem mem_names_of_perform (ran : effect.perform host m = (r, m')) :
    x ∈ m'.names ↔ x ∈ m.names ∨ effect.bound? = some x ∧ ∃ a, r = .ok a := by
  have unchanged (plain : effect.bound? = none) (same : m'.names = m.names) :
      x ∈ m'.names ↔ x ∈ m.names ∨ effect.bound? = some x ∧ ∃ a, r = .ok a := by
    simp [plain, same]
  cases effect with
  | bindVariable loc name v =>
    rcases r with halt | _
    · simp only [perform, Run.bindVariable] at ran
      split at ran
      · cases ran
      · cases ran
        simp
    · cases Run.bindVariable_eq_ok ran
      exact Variables.mem_names_insert.trans (by simp [bound?, Machine.names])
  | bindArray name size =>
    cases ran
    exact Variables.mem_names_insert.trans (by simp [bound?, Machine.names])
  | storeElement id slot v =>
    cases ran
    exact unchanged rfl rfl
  | _ => exact unchanged rfl (by rw [Machine.names, store_of_perform rfl ran, Machine.names])

theorem constant?_of_bindVariable {loc : Option Location} {name : Text} {v : Value}
    (ran : (bindVariable loc name v).perform host m = (.ok (), m')) : constant? name = none := by
  simp only [perform, Run.bindVariable, Store.set?] at ran
  cases constant : constant? name with
  | none => rfl
  | some c =>
    rw [constant] at ran
    cases ran

/-- A size is only computed for a name that has no value. -/
theorem get?_of_declaredSize {loc : Option Location} {name : Text} {size : Expr} {n : Nat}
    (ran : (declaredSize loc name size).perform host m = (.ok n, m')) :
    m'.store.get? name = none := by
  obtain ⟨drawn, sized, rfl⟩ := Run.evaluating_eq_ok (x := Run.declaredSize host loc name size) ran
  obtain ⟨v, k, evaluated, sized⟩ := Action.bind_eq_ok.1 sized
  split at sized
  · cases sized
  · next free =>
    rw [Store.has, Bool.not_eq_true, Option.isSome_eq_false_iff, Option.isNone_iff_eq_none] at free
    exact free

end Effect

namespace Store

variable {s : Store} {x : Text}

theorem not_mem_names_of_get? (free : s.get? x = none) :
    constant? x = none ∧ x ∉ s.bindings.names := by
  unfold get? at free
  split at free
  · cases free
  · next notConstant =>
    refine ⟨notConstant, fun mem => ?_⟩
    rw [Variables.mem_names_iff, free] at mem
    cases mem

theorem eval_constant {c : Number} (constant : constant? x = some c) (loc : Option Location)
    (draws : Nat → Number) : (Expr.name loc x).eval draws s = pure (.number c) := by
  simp only [Expr.eval, get?, constant]

end Store

/-- Every name that is bound is one that a statement of the program binds, and no constant's. -/
def Machine.BindsFrom (p : Program) (m : Machine) : Prop :=
  ∀ x ∈ m.names, constant? x = none ∧ ∃ s ∈ p.statements, x ∈ s.binds

namespace Effect

variable {α : Type} {p : Program} {host : Host} {m m' : Machine}

/-- After an effect the names are still those that the program binds. -/
def KeepsNames (p : Program) (host : Host) (m : Machine) (effect : Effect α) : Prop :=
  ∀ r m', effect.perform host m = (r, m') → m'.BindsFrom p ∧ True

theorem keepsNames_of_fit {effect : Effect α}
    (fit : ∀ x a m', effect.bound? = some x → effect.perform host m = (.ok a, m') →
      constant? x = none ∧ ∃ s ∈ p.statements, x ∈ s.binds)
    (holds : m.BindsFrom p) : effect.KeepsNames p host m := by
  intro r m' ran
  refine ⟨fun x mem => ?_, trivial⟩
  rcases (mem_names_of_perform ran).1 mem with before | ⟨binds, a, rfl⟩
  · exact holds x before
  · exact fit x a m' binds ran

theorem keepsNames_of_plain {effect : Effect α} (plain : effect.bound? = none)
    (holds : m.BindsFrom p) : effect.KeepsNames p host m := by
  refine keepsNames_of_fit (fun x a m' binds => ?_) holds
  rw [plain] at binds
  cases binds

theorem keepsNames_bindVariable {s : Stmt} (statement : s ∈ p.statements)
    {loc : Option Location} {name : Text} {v : Value} (binds : name ∈ s.binds)
    (holds : m.BindsFrom p) : (bindVariable loc name v).KeepsNames p host m := by
  refine keepsNames_of_fit (fun x a m' same ran => ?_) holds
  cases same
  exact ⟨constant?_of_bindVariable ran, s, statement, binds⟩

theorem keepsNames_bindArray {s : Stmt} (statement : s ∈ p.statements) {name : Text} {size : Nat}
    (binds : name ∈ s.binds) (free : m.store.get? name = none) (holds : m.BindsFrom p) :
    (bindArray name size).KeepsNames p host m := by
  refine keepsNames_of_fit (fun x a m' same _ => ?_) holds
  cases same
  exact ⟨(Store.not_mem_names_of_get? free).1, s, statement, binds⟩

end Effect

open Effect (keepsNames_of_plain keepsNames_bindVariable keepsNames_bindArray)

/-- Every statement binds its own names only. -/
theorem closed_bindsFrom (p : Program) (host : Host) :
    Script.Closed (· ∈ p.statements) (Script.Upholds host (Machine.BindsFrom p) fun _ => True) where
  pure := .pure
  exhausted := .exhausted
  bind := .bind
  checkpoint _ _ holds := .perform (keepsNames_of_plain rfl holds)
  value _ _ _ holds := .perform (keepsNames_of_plain rfl holds)
  assign own m holds := by
    refine .act (keepsNames_of_plain rfl holds) fun v m' ran => ?_
    have kept := (keepsNames_of_plain rfl holds _ _ ran).1
    exact .perform (keepsNames_bindVariable own (List.mem_singleton_self _) kept)
  dimension own m holds := by
    refine .act (keepsNames_of_plain rfl holds) fun n m' ran => ?_
    have kept := (keepsNames_of_plain rfl holds _ _ ran).1
    have free := Effect.get?_of_declaredSize ran
    exact .perform (keepsNames_bindArray own (List.mem_singleton_self _) free kept)
  assignElement _ m holds := by
    refine .act (keepsNames_of_plain rfl holds) fun target m' ran => ?_
    exact .perform (keepsNames_of_plain rfl (keepsNames_of_plain rfl holds _ _ ran).1)
  print _ m holds := by
    refine .act (keepsNames_of_plain rfl holds) fun line m' ran => ?_
    exact .perform (keepsNames_of_plain rfl (keepsNames_of_plain rfl holds _ _ ran).1)
  read own target m holds := by
    refine .act (keepsNames_of_plain rfl holds) fun line m' ran => ?_
    have kept := (keepsNames_of_plain rfl holds _ _ ran).1
    exact .perform (keepsNames_bindVariable own (List.mem_map_of_mem target) kept)
  count own _ _ holds :=
    .perform (keepsNames_bindVariable own (List.mem_singleton_self _) holds)

namespace Program

variable {turns : Nat} {host : Host} {p : Program} {channels : Channels}
  {past later : List Occurrence} {m m' : Machine}

namespace Reaches

theorem bindsFrom (reached : p.Reaches turns host channels past m) : m.BindsFrom p := by
  have upholds := (closed_bindsFrom p host).block turns p.body fun _ mem => mem
  exact (of_upholds upholds (List.forall_mem_nil _)).1 past m reached

/-- A name that is bound stays bound. -/
theorem names_subset (reached : p.Reaches turns host channels past m)
    (onward : p.Reaches turns host channels (past ++ later) m') : m.names ⊆ m'.names := by
  intro x mem
  have kept {α : Type} (effect : Effect α) {r : Except Halt α} {m m' : Machine}
      (ran : effect.perform host m = (r, m')) (before : x ∈ m.names) : x ∈ m'.names :=
    (Effect.mem_names_of_perform ran).2 (.inl before)
  exact reached.stays kept onward mem

/-- An array is only created for a dimension, and its name has not been bound before. -/
theorem dimension_of_bindArray {middle rest : List Occurrence} {name : Text} {n : Nat}
    {bound : Machine} (reached : p.Reaches turns host channels past m)
    (onward : p.Reaches turns host channels
      (past ++ (middle ++ ⟨.bindArray name n, .ok (), bound⟩ :: rest)) m') :
    (∃ loc size, .dimension loc name size ∈ p.statements) ∧ name ∉ m.names := by
  have declared : Occurrence.Declared (· ∈ p.statements) (p.history turns host channels) :=
    (Script.closed_declares (· ∈ p.statements)).block turns p.body (fun _ mem => mem) _ _
  obtain ⟨after, split⟩ := onward.begins
  rw [← List.append_assoc, List.append_assoc, List.cons_append] at split
  rw [← split] at declared
  obtain ⟨before, loc, _, size, sized, _, statement, asked, same⟩ := declared.exists_sized rfl
  cases same
  refine ⟨⟨loc, size, statement⟩, fun mem => ?_⟩
  -- Right behind the question the name is still free, so it is on the whole way there.
  have begins : past ++ middle <+: p.history turns host channels := ⟨_, split⟩
  have there : p.Reaches turns host channels (past ++ middle) sized := by
    refine ⟨begins, ?_⟩
    rw [asked, Occurrence.lead_snoc]
  rw [asked, List.append_assoc] at split
  have free := Effect.get?_of_declaredSize
    (Script.perform_of_history (x := p.script turns) split.symm)
  exact (Store.not_mem_names_of_get? free).2 (reached.names_subset there mem)

end Reaches

/-- **The names of a run.** Of two states that a run comes to one after the other: what is bound in
the earlier one is bound in the later one; the names are in strictly ascending order, and each is
the one to be bound in an assignment, a reading, a counting loop or a dimension of the program; the
constants are not among them and have their values; and an array that is created between the two is
that of a dimension, whose name is not bound in the earlier state. -/
theorem names_of_reaches (reached : p.Reaches turns host channels past m)
    (onward : p.Reaches turns host channels (past ++ later) m') :
    m.names ⊆ m'.names ∧
    m.names.Pairwise (· < ·) ∧
    (∀ x ∈ m.names, ∃ s ∈ p.statements, x ∈ s.binds) ∧
    (∀ x c, constant? x = some c → x ∉ m.names ∧
      ∀ loc, (Expr.name loc x).eval host.draws m.store = pure (.number c)) ∧
    ∀ middle name n bound rest, later = middle ++ ⟨.bindArray name n, .ok (), bound⟩ :: rest →
      (∃ loc size, .dimension loc name size ∈ p.statements) ∧ name ∉ m.names := by
  refine ⟨reached.names_subset onward, Variables.pairwise_names _,
    fun x mem => (reached.bindsFrom x mem).2, fun x c constant => ⟨fun mem => ?_, fun loc => ?_⟩,
    ?_⟩
  · rw [(reached.bindsFrom x mem).1] at constant
    cases constant
  · exact Store.eval_constant constant loc host.draws
  · rintro middle name n bound rest rfl
    exact reached.dimension_of_bindArray onward

/-- A tree that no source has, since it reads a line into a constant. -/
def handmade : Program where
  name := "p"
  body := [.assign none "a" (.name none "PI"), .dimension none "b" (.number none 2),
    .read none [⟨none, "E"⟩]]

theorem names_of_reaches_handmade :
    let channels := Channels.initial {} (.lines ["1"])
    ∃ past middle bound rest m m', handmade.Reaches 0 {} channels past m ∧
      handmade.Reaches 0 {} channels
        (past ++ (middle ++ ⟨.bindArray "b" 2, .ok (), bound⟩ :: rest)) m' ∧
      m.names = ["a"] ∧ m'.names = ["a", "b"] ∧ ("a" : Text) ∈ m'.names ∧
      ("b" : Text) ∉ m.names := by
  intro channels
  obtain ⟨past, middle, bound, rest, split, first⟩ : ∃ past middle bound rest,
      handmade.history 0 {} channels =
        past ++ (middle ++ ⟨.bindArray "b" 2, .ok (), bound⟩ :: rest) ∧
      (Occurrence.lead ⟨.empty, 0, #[], channels⟩ past).names = ["a"] :=
    ⟨[_, _, _], [_, _], _, [_, _, _], rfl, by decide +kernel⟩
  obtain ⟨m', onward, same, -⟩ := @reaches_report 0 {} handmade channels
  have final : m'.names = ["a", "b"] := by
    rw [Machine.names, ← same]
    decide +kernel
  rw [split] at onward
  have reached : handmade.Reaches 0 {} channels past _ := ⟨⟨_, split.symm⟩, rfl⟩
  obtain ⟨kept, -, -, -, fresh⟩ := names_of_reaches reached onward
  have still : ("a" : Text) ∈ m'.names := kept (by rw [first]; exact List.mem_singleton_self _)
  exact ⟨past, middle, _, rest, _, m', reached, onward, first, final, still,
    (fresh _ _ _ _ _ rfl).2⟩

end Program

end Pseudocode

import Pseudocode.Proofs.Run.Arrays

/-!
# Where the arrays of a run come from

A run creates an array by executing a dimension, and nowhere else: in the history of a run the
creation of an array stands right behind the computation of its size, in the order in which the
script of the statement asks for them. So the arrays of a state are, one for one and in order, those
of the dimensions that were executed on the way there, and their lengths are the sizes that were
computed.

With a limit that doubles count up to, all lengths are exact, and the bounds law holds in every
state that a run comes to.
-/

namespace Pseudocode

namespace Occurrence

/-- The length of the array that an effect created. -/
def created? (o : Occurrence) : Option Nat := o.effect.created?

/-- Every array is created right behind its size, by a statement that is fit. -/
inductive Declared (fit : Stmt → Prop) : List Occurrence → Prop where
  | nil : Declared fit []
  | other {o : Occurrence} {later : List Occurrence} (plain : o.created? = none)
      (rest : Declared fit later) : Declared fit (o :: later)
  | dimension {loc : Option Location} {name : Text} {size : Expr} {n : Nat}
      {sized bound : Machine} {later : List Occurrence} (own : fit (.dimension loc name size))
      (rest : Declared fit later) :
      Declared fit (⟨.declaredSize loc name size, .ok n, sized⟩ ::
        ⟨.bindArray name n, .ok (), bound⟩ :: later)

namespace Declared

variable {fit : Stmt → Prop} {first later : List Occurrence}

theorem append (h : Declared fit first) (rest : Declared fit later) :
    Declared fit (first ++ later) := by
  induction h with
  | nil => exact rest
  | other plain _ ih => exact .other plain ih
  | dimension own _ ih => exact .dimension own ih

/-- Right before an array is created its size is computed. -/
theorem exists_sized {o : Occurrence} {n : Nat} (creates : o.created? = some n)
    (h : Declared fit (first ++ o :: later)) :
    ∃ before loc name size sized bound, fit (.dimension loc name size) ∧
      first = before ++ [⟨.declaredSize loc name size, .ok n, sized⟩] ∧
      o = ⟨.bindArray name n, .ok (), bound⟩ := by
  generalize split : first ++ o :: later = all at h
  induction h generalizing first with
  | nil => exact absurd split (by simp)
  | other plain _ ih =>
    rcases first with _ | ⟨head, first⟩
    · cases split
      rw [plain] at creates
      cases creates
    · rw [List.cons_append, List.cons.injEq] at split
      obtain ⟨rfl, split⟩ := split
      obtain ⟨before, loc, name, size, sized, bound, own, rfl, same⟩ := ih split
      exact ⟨head :: before, loc, name, size, sized, bound, own, rfl, same⟩
  | @dimension loc name size k sized bound _ own _ ih =>
    rcases first with _ | ⟨head, _ | ⟨second, first⟩⟩
    · cases split
      cases creates
    · cases split
      cases creates
      exact ⟨[], loc, name, size, sized, bound, own, rfl, rfl⟩
    · rw [List.cons_append, List.cons_append, List.cons.injEq, List.cons.injEq] at split
      obtain ⟨rfl, rfl, split⟩ := split
      obtain ⟨before, loc, name, size, sized, bound, own, rfl, same⟩ := ih split
      exact ⟨_ :: _ :: before, loc, name, size, sized, bound, own, rfl, same⟩

end Declared

/-- An array that was created in some effects, and how many were created in front of it. -/
theorem exists_created {past : List Occurrence} {id n : Nat}
    (found : (past.filterMap created?)[id]? = some n) :
    ∃ first o later, past = first ++ o :: later ∧ o.created? = some n ∧
      (first.filterMap created?).length = id := by
  induction past generalizing id with
  | nil => exact absurd found (by simp)
  | cons o past ih =>
    cases creates : o.created? with
    | none =>
      rw [List.filterMap_cons_none creates] at found
      obtain ⟨first, o', later, rfl, creates', count⟩ := ih found
      refine ⟨o :: first, o', later, rfl, creates', ?_⟩
      rw [List.filterMap_cons_none creates, count]
    | some k =>
      rw [List.filterMap_cons_some creates] at found
      cases id with
      | zero =>
        cases found
        exact ⟨[], o, past, rfl, creates, rfl⟩
      | succ id =>
        obtain ⟨first, o', later, rfl, creates', count⟩ := ih found
        refine ⟨o :: first, o', later, rfl, creates', ?_⟩
        rw [List.filterMap_cons_some creates, List.length_cons, count]

end Occurrence

/-- The size of a dimension is a natural number within the limit. -/
theorem Run.declaredSize_eq_ok {host : Host} (limit : host.maxArraySize ≤ 9007199254740992)
    {loc : Option Location} {name : Text} {size : Expr} {store : Store} {k k' n : Nat}
    (ran : declaredSize host loc name size store k = (.ok n, k')) :
    ∃ x drawn, size.eval host.draws store k = (.ok (.number x), drawn) ∧
      x.value? = some (n : ℚ) ∧ n ≤ host.maxArraySize := by
  obtain ⟨v, drawn, evaluated, ran⟩ := Action.bind_eq_ok.1 ran
  split at ran
  · cases ran
  · obtain ⟨x, rfl, whole, limited⟩ := (arraySize_eq_ok limit).1 (Eval.located_eq_ok ran).1
    exact ⟨x, drawn, evaluated, whole, limited⟩

namespace Script

variable {α : Type} {fit : Stmt → Prop} {host : Host} {m : Machine}

/-- On every walk arrays are created right behind their sizes only. -/
def Declares (fit : Stmt → Prop) (x : Script α) : Prop :=
  ∀ host m, Occurrence.Declared fit (x.history host m)

theorem declares_act {β : Type} {effect : Effect β} {next : β → Script α}
    (plain : effect.created? = none) (rest : ∀ b, Declares fit (next b)) :
    Declares fit (act effect next) := by
  intro host m
  rcases answer : effect.perform host m with ⟨halt | b, m'⟩
  · rw [history_act_of_error answer]
    exact .other plain .nil
  · rw [history_act_of_ok answer]
    exact .other plain (rest b host m')

theorem declares_pure (a : α) : Declares fit (pure a : Script α) := fun _ _ => .nil

theorem declares_perform {effect : Effect α} (plain : effect.created? = none) :
    Declares fit (perform effect) :=
  declares_act plain declares_pure

theorem declares_bind {β : Type} {x : Script α} {f : α → Script β} (first : Declares fit x)
    (rest : ∀ a, Declares fit (f a)) : Declares fit (x >>= f) := by
  intro host m
  rcases ran : x.run host m with ⟨halt | a, m'⟩
  · rw [history_bind_of_error ran]
    exact first host m
  · rw [history_bind_of_ok ran]
    exact (first host m).append (rest a host m')

theorem declares_dimension {loc : Option Location} {name : Text} {size : Expr}
    (own : fit (.dimension loc name size)) :
    Declares fit (act (.declaredSize loc name size) fun n => perform (.bindArray name n)) := by
  intro host m
  rcases answer : (Effect.declaredSize loc name size).perform host m with ⟨halt | n, m'⟩
  · rw [history_act_of_error answer]
    exact .other rfl .nil
  · rw [history_act_of_ok answer]
    exact .dimension own .nil

/-- In the script of a program it is its dimensions that create arrays. -/
theorem closed_declares (fit : Stmt → Prop) : Closed fit (Declares fit) where
  pure := declares_pure
  exhausted _ _ := .nil
  bind := declares_bind
  checkpoint _ := declares_perform rfl
  value _ _ := declares_perform rfl
  assign _ := declares_act rfl fun _ => declares_perform rfl
  dimension := declares_dimension
  assignElement _ := declares_act rfl fun _ => declares_perform rfl
  print _ := declares_act rfl fun _ => declares_perform rfl
  read _ _ := declares_act rfl fun _ => declares_perform rfl
  count _ _ := declares_perform rfl

/-- The arrays on the way are those that were there and those that the effects so far created. -/
theorem sizes_lead {x : Script α} {before after : List Occurrence}
    (split : x.history host m = before ++ after) :
    (Occurrence.lead m before).store.arrays.sizes =
      m.store.arrays.sizes ++ before.filterMap Occurrence.created? := by
  induction before using List.reverseRecOn generalizing after with
  | nil => exact (List.append_nil _).symm
  | append_singleton before o ih =>
    rw [List.append_assoc, List.singleton_append] at split
    have performed := perform_of_history split
    rw [Occurrence.lead_snoc, Effect.sizes_of_perform performed, ih split, List.filterMap_append,
      List.append_assoc, List.filterMap_cons, List.filterMap_nil]
    rfl

end Script

namespace Program

variable {turns : Nat} {host : Host} {p : Program} {channels : Channels}
  {past : List Occurrence} {m : Machine} {id n : Nat}

/-- A run has created an array: one of its dimensions was executed in a state that had as many
arrays as the number of the new one says. The size was a natural number within the limit, and the
name was bound to the array. -/
inductive Creates (turns : Nat) (host : Host) (p : Program) (channels : Channels)
    (past : List Occurrence) (id n : Nat) : Prop where
  | intro {before : List Occurrence} {loc : Option Location} {name : Text} {size : Expr}
      {m sized bound : Machine} {x : Number} {drawn : Nat}
      (statement : .dimension loc name size ∈ p.statements)
      (reached : p.Reaches turns host channels before m)
      (executed : before ++ [⟨.declaredSize loc name size, .ok n, sized⟩,
        ⟨.bindArray name n, .ok (), bound⟩] <+: past)
      (evaluated : size.eval host.draws m.store m.channels.drawn = (.ok (.number x), drawn))
      (whole : x.value? = some (n : ℚ))
      (limited : n ≤ host.maxArraySize)
      (fresh : m.store.arrays.cells.size = id)
      (named : bound.store.bindings.find? name = some (.array id))

theorem Creates.mono (h : p.Creates turns host channels past id n) (later : List Occurrence) :
    p.Creates turns host channels (past ++ later) id n := by
  obtain ⟨statement, reached, executed, evaluated, whole, limited, fresh, named⟩ := h
  exact ⟨statement, reached, executed.trans (List.prefix_append past later), evaluated, whole,
    limited, fresh, named⟩

namespace Reaches

/-- The arrays of a state are those that were created on the way. -/
theorem sizes (h : p.Reaches turns host channels past m) :
    m.store.arrays.sizes = past.filterMap Occurrence.created? := by
  obtain ⟨⟨rest, split⟩, rfl⟩ := h
  exact Script.sizes_lead split.symm

theorem isClosed (h : p.Reaches turns host channels past m) : m.store.IsClosed := by
  have upholds := (closed_isClosed host).block turns p.body fun _ _ => trivial
  exact (of_upholds upholds Store.isClosed_empty).1 past m h

end Reaches

/-- A dimension that was executed has created an array. -/
theorem creates_of_executed (limit : host.maxArraySize ≤ 9007199254740992)
    {before : List Occurrence} {loc : Option Location} {name : Text} {size : Expr}
    {sized bound : Machine} (statement : .dimension loc name size ∈ p.statements)
    (executed : before ++ [⟨.declaredSize loc name size, .ok n, sized⟩,
      ⟨.bindArray name n, .ok (), bound⟩] <+: past)
    (begins : past <+: p.history turns host channels) :
    p.Creates turns host channels past (before.filterMap Occurrence.created?).length n := by
  obtain ⟨rest, split⟩ := executed.trans begins
  rw [List.append_assoc] at split
  have computes := Script.perform_of_history (x := p.script turns) split.symm
  obtain ⟨drawn, ran, same⟩ :=
    Run.evaluating_eq_ok (x := Run.declaredSize host loc name size) computes
  obtain ⟨x, drawn, evaluated, whole, limited⟩ := Run.declaredSize_eq_ok limit ran
  rw [List.cons_append, List.append_cons] at split
  have binds := Script.perform_of_history (x := p.script turns) split.symm
  rw [Occurrence.lead_snoc] at binds
  have reached : p.Reaches turns host channels before _ :=
    ⟨(List.prefix_append before _).trans (executed.trans begins), rfl⟩
  have fresh := (Arrays.length_sizes _).symm.trans (congrArg List.length reached.sizes)
  refine ⟨statement, reached, executed, evaluated, whole, limited, fresh, ?_⟩
  rw [← fresh]
  cases same
  cases binds
  exact (Variables.find?_insert _ name _ name).trans (if_pos rfl)

/-- Every array of a state was created by a dimension. -/
theorem Reaches.creates (h : p.Reaches turns host channels past m)
    (limit : host.maxArraySize ≤ 9007199254740992)
    (found : m.store.arrays.sizes[id]? = some n) : p.Creates turns host channels past id n := by
  rw [h.sizes] at found
  obtain ⟨first, o, later, rfl, creates, count⟩ := Occurrence.exists_created found
  have declared : Occurrence.Declared (· ∈ p.statements) (p.history turns host channels) :=
    (Script.closed_declares (· ∈ p.statements)).block turns p.body (fun _ mem => mem) _ _
  obtain ⟨rest, split⟩ := h.begins
  rw [← split, List.append_assoc, List.cons_append] at declared
  obtain ⟨before, loc, name, size, sized, bound, statement, rfl, rfl⟩ :=
    declared.exists_sized creates
  have executed : before ++ [⟨.declaredSize loc name size, .ok n, sized⟩,
      ⟨.bindArray name n, .ok (), bound⟩] <+:
      before ++ [⟨.declaredSize loc name size, .ok n, sized⟩] ++
        ⟨.bindArray name n, .ok (), bound⟩ :: later := ⟨later, by simp⟩
  rw [List.filterMap_append, List.length_append] at count
  exact count ▸ creates_of_executed limit statement executed h.begins

/-- An array has the length that it was created with. -/
theorem Creates.size (created : p.Creates turns host channels past id n)
    (h : p.Reaches turns host channels past m) : (m.store.arrays.elements id).size = n := by
  obtain ⟨statement, reached, ⟨rest, rfl⟩, evaluated, whole, limited, fresh, named⟩ := created
  have count := reached.sizes ▸ (Arrays.length_sizes _).trans fresh
  rw [Arrays.size_elements, h.sizes, List.filterMap_append, List.filterMap_append,
    List.append_assoc, List.getElem?_append_right count.le, count, Nat.sub_self]
  rfl

/-- All lengths in a state are within the limit. -/
theorem Reaches.areExact (h : p.Reaches turns host channels past m)
    (limit : host.maxArraySize ≤ 9007199254740992) : m.store.arrays.AreExact := by
  intro id
  rw [Arrays.size_elements]
  cases found : m.store.arrays.sizes[id]? with
  | none => exact Nat.zero_le _
  | some n =>
    obtain ⟨_, _, _, _, _, limited, _, _⟩ := h.creates limit found
    exact limited.trans limit

/-- With a limit of at most two to the power of 53, in every state that a run comes to: an array
that a variable or an element holds was created by a dimension that the run executed, with the
length that it has; an array has the length that it was created with in all later states; and the
bounds law holds. -/
theorem arrays_of_reaches (limit : host.maxArraySize ≤ 2 ^ 53)
    (h : p.Reaches turns host channels past m) :
    (∀ id, m.store.Holds (.array id) →
      p.Creates turns host channels past id (m.store.arrays.elements id).size) ∧
    (∀ later m', p.Reaches turns host channels (past ++ later) m' →
      ∀ id n, p.Creates turns host channels past id n →
        (m'.store.arrays.elements id).size = n) ∧
    m.BoundsLaw host := by
  refine ⟨fun id held => ?_, fun later m' reached id n created => ?_, ?_⟩
  · have there := h.isClosed _ held id rfl
    rw [← Arrays.length_sizes] at there
    refine h.creates limit ?_
    rw [Arrays.size_elements, List.getElem?_eq_getElem there]
    rfl
  · exact (created.mono later).size reached
  · exact Machine.boundsLaw_of_areExact host (h.areExact limit)

/-- An array that is held by another one, and an assignment through a name that was taken from
there. -/
def shared : Text :=
  "algoritmo p
  dimension v[3]
  dimension a[1]
  a[1] <- v
  w <- a[1]
  w[2] <- 7
finalgoritmo"

theorem arrays_of_reaches_shared :
    ∃ p past m, ofSource shared = .ok p ∧ p.Reaches 0 {} (.initial {} (.lines [])) past m ∧
      m.store.arrays.elements 0 = #[.uninitialized, .number 7, .uninitialized] ∧
      m.store.arrays.elements 1 = #[.array 0] ∧
      p.Creates 0 {} (.initial {} (.lines [])) past 0 3 ∧ m.BoundsLaw {} := by
  have checked : (ofSource shared).toOption.any (fun p =>
      let arrays := (p.runFor 0 {} (.initial {} (.lines []))).1.store.arrays
      decide (arrays.elements 0 = #[.uninitialized, .number 7, .uninitialized] ∧
        arrays.elements 1 = #[.array 0])) = true := by
    decide +kernel
  cases compiled : ofSource shared with
  | error =>
    rw [compiled] at checked
    cases checked
  | ok p =>
    rw [compiled] at checked
    obtain ⟨m, reached, same, _⟩ := @reaches_report 0 {} p (.initial {} (.lines []))
    have final := of_decide_eq_true checked
    rw [same] at final
    obtain ⟨first, second⟩ := final
    obtain ⟨held, _, law⟩ := arrays_of_reaches (by decide) reached
    have inside : (m.store.arrays.elements 1)[0]? = some (.array 0) := by
      rw [second]
      rfl
    have created := held 0 (.element inside)
    rw [first] at created
    exact ⟨p, _, m, rfl, reached, first, second, created, law⟩

end Program

end Pseudocode

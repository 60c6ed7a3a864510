import Pseudocode.Proofs.Run.Dimensions
import Pseudocode.Proofs.Value.Nesting

/-!
# How arrays get into themselves

The graph of the arrays changes in two ways. A dimension adds an array without an edge, and an
assignment to an element takes out the edge of the old value and puts in that of the new one. So a
cycle is closed by an assignment to an element, and only by one whose value is the array that is
assigned to or an array that this one is reachable from. Nothing in a run keeps a program from such
an assignment.
-/

namespace Pseudocode

open Relation (ReflTransGen TransGen)
open Pseudocode.Action (Gives gives_pure gives_fail gives_bind)

namespace Arrays

variable {a : Arrays} {id slot i j : Nat} {v : Value}

theorem contains_of_store (edge : (a.store id slot v).Contains i j) :
    a.Contains i j ∨ i = id ∧ v = .array j := by
  rw [Contains, elements_store] at edge
  split at edge
  · next same =>
    rcases Array.mem_or_eq_of_mem_setIfInBounds edge with old | new
    · exact .inl old
    · exact .inr ⟨same.symm, new.symm⟩
  · exact .inl edge

/-- After a store, a way is an old one, or it comes to the array that was assigned to and goes on
from the new element. -/
theorem transGen_of_store (way : TransGen (a.store id slot v).Contains i j) :
    TransGen a.Contains i j ∨ ReflTransGen a.Contains i id ∧ a.LeadsTo v j := by
  induction way with
  | single edge =>
    rcases contains_of_store edge with old | ⟨rfl, rfl⟩
    · exact .inl (.single old)
    · exact .inr ⟨.refl, .chain .refl⟩
  | tail _ edge ih =>
    rcases contains_of_store edge with old | ⟨rfl, rfl⟩
    · rcases ih with way | ⟨first, ⟨last⟩⟩
      · exact .inl (way.tail old)
      · exact .inr ⟨first, .chain (last.tail old)⟩
    · rcases ih with way | ⟨first, _⟩
      · exact .inr ⟨way.to_reflTransGen, .chain .refl⟩
      · exact .inr ⟨first, .chain .refl⟩

/-- A store closes no cycle unless its value leads to the array that it changes. -/
theorem IsAcyclic.store (h : a.IsAcyclic)
    (apart : slot < (a.elements id).size → ¬ a.LeadsTo v id) : (a.store id slot v).IsAcyclic := by
  by_cases inRange : slot < (a.elements id).size
  · intro i cycle
    rcases transGen_of_store cycle with old | ⟨first, ⟨last⟩⟩
    · exact h i old
    · exact apart inRange (.chain (last.trans first))
  · refine h.mono fun i j edge => ?_
    rw [Contains, elements_store] at edge
    split at edge
    · next same =>
      subst same
      rw [Array.setIfInBounds_def, dif_neg inRange] at edge
      exact edge
    · exact edge

/-- A way to the array that was assigned to is still there: up to where it first comes to this array
it has only elements of others. -/
theorem reflTransGen_store (way : ReflTransGen a.Contains j id) :
    ReflTransGen (a.store id slot v).Contains j id := by
  induction way using ReflTransGen.head_induction_on with
  | refl => exact .refl
  | @head k l edge _ rest =>
    by_cases arrived : id = k
    · subst arrived
      exact .refl
    · refine rest.head ?_
      rw [Contains, elements_store, if_neg arrived]
      exact edge

/-- A store whose value leads to the array that it changes closes a cycle. -/
theorem isCyclic_store (inRange : slot < (a.elements id).size) (leads : a.LeadsTo v id) :
    (a.store id slot v).IsCyclic id := by
  obtain ⟨way⟩ := leads
  refine TransGen.head' ?_ (reflTransGen_store way)
  rw [Contains, elements_store, if_pos rfl]
  exact Array.mem_setIfInBounds inRange

theorem IsAcyclic.allocate (h : a.IsAcyclic) (size : Nat) :
    (a.allocate (.replicate size .uninitialized)).1.IsAcyclic := by
  refine h.mono fun i j edge => ?_
  rw [Contains, elements_allocate] at edge
  split at edge
  · cases Array.eq_of_mem_replicate edge
  · exact edge

theorem isAcyclic_empty : empty.IsAcyclic := by
  intro i cycle
  obtain ⟨j, edge, _⟩ := TransGen.head'_iff.1 cycle
  exact absurd (lt_size_of_mem edge) (Nat.not_lt_zero i)

end Arrays

namespace Effect

/-- An effect closes a cycle: it stores a value in an array that the value leads to. -/
def Closes {α : Type} (m : Machine) : Effect α → Prop
  | storeElement id slot v =>
    slot < (m.store.arrays.elements id).size ∧ m.store.arrays.LeadsTo v id
  | _ => False

/-- What an assignment to an element stores is what it has computed in the same store. -/
def Assigns {α : Type} (fit : Stmt → Prop) (host : Host) (m : Machine) : Effect α → Prop
  | storeElement id slot v =>
    ∃ loc name index e n n', fit (.assignElement loc name index e) ∧
      Run.elementTarget host loc name index e m.store n = (.ok (id, slot, v), n')
  | _ => True

/-- There is no cycle after an effect that closes none. -/
theorem isAcyclic_of_perform {α : Type} {host : Host} {m m' : Machine} {effect : Effect α}
    {r : Except Halt α} (acyclic : m.store.arrays.IsAcyclic) (apart : ¬ effect.Closes m)
    (ran : effect.perform host m = (r, m')) : m'.store.arrays.IsAcyclic := by
  cases effect with
  | storeElement id slot v =>
    cases ran
    exact acyclic.store fun inRange leads => apart ⟨inRange, leads⟩
  | bindArray name size =>
    cases ran
    exact acyclic.allocate size
  | bindVariable loc name v =>
    rcases Run.store_of_bindVariable ran with same | same
    · rw [same]
      exact acyclic
    · rw [same]
      exact acyclic
  | _ =>
    rw [store_of_perform rfl ran]
    exact acyclic

end Effect

namespace Script

variable {α β : Type} {host : Host} {right : Machine → ∀ {γ : Type}, Effect γ → Prop}

/-- All effects of a walk are right for the states in which they are had. -/
def Throughout (host : Host) (right : Machine → ∀ {γ : Type}, Effect γ → Prop) :
    Script α → Machine → Prop
  | done _, _ | exhausted, _ => True
  | act effect next, m => right m effect ∧
      ∀ b m', effect.perform host m = (.ok b, m') → (next b).Throughout host right m'

namespace Throughout

theorem bind {x : Script α} {f : α → Script β} (first : ∀ m, x.Throughout host right m)
    (rest : ∀ a m, (f a).Throughout host right m) (m : Machine) :
    (x >>= f).Throughout host right m := by
  have start : x.Throughout host right m := first m
  clear first
  induction x generalizing m with
  | done a => exact rest a m
  | exhausted => trivial
  | act effect next ih => exact ⟨start.1, fun b m' ran => ih b m' (start.2 b m' ran)⟩

theorem of_history {x : Script α} {m : Machine} {before later : List Occurrence} {o : Occurrence}
    (h : x.Throughout host right m) (split : x.history host m = before ++ o :: later) :
    right (Occurrence.lead m before) o.effect := by
  induction x generalizing m before with
  | done a => exact absurd split (by simp [history])
  | exhausted => exact absurd split (by simp [history])
  | act effect next ih =>
    rcases answer : effect.perform host m with ⟨halt | b, m'⟩
    · rw [history_act_of_error answer] at split
      rcases before with _ | ⟨head, before⟩
      · cases split
        exact h.1
      · exact absurd (List.cons.inj split).2 (by simp)
    · rw [history_act_of_ok answer] at split
      rcases before with _ | ⟨head, before⟩
      · cases split
        exact h.1
      · obtain ⟨rfl, rest⟩ := List.cons.inj split
        exact ih b (m := m') (h.2 b m' answer) rest

end Throughout

/-- In the script of a program it is its assignments that store elements. -/
theorem closed_assigns (fit : Stmt → Prop) (host : Host) : Closed fit fun x =>
    ∀ m, x.Throughout host (fun m _ effect => effect.Assigns fit host m) m where
  pure _ _ := trivial
  exhausted _ := trivial
  bind := .bind
  checkpoint _ _ := ⟨trivial, fun _ _ _ => trivial⟩
  value _ _ _ := ⟨trivial, fun _ _ _ => trivial⟩
  assign _ _ := ⟨trivial, fun _ _ _ => ⟨trivial, fun _ _ _ => trivial⟩⟩
  dimension _ _ := ⟨trivial, fun _ _ _ => ⟨trivial, fun _ _ _ => trivial⟩⟩
  assignElement {loc name index e} own m := by
    refine ⟨trivial, fun target m' ran => ⟨?_, fun _ _ _ => trivial⟩⟩
    obtain ⟨n, computed, rfl⟩ := Run.evaluating_eq_ok ran
    exact ⟨loc, name, index, e, _, n, own, computed⟩
  print _ _ := ⟨trivial, fun _ _ _ => ⟨trivial, fun _ _ _ => trivial⟩⟩
  read _ _ _ := ⟨trivial, fun _ _ _ => ⟨trivial, fun _ _ _ => trivial⟩⟩
  count _ _ _ := ⟨trivial, fun _ _ _ => trivial⟩

end Script

/-- An expression whose value is computed, and not what a variable or an element holds. -/
def Expr.IsComputed : Expr → Prop
  | .name _ _ | .element _ _ _ => False
  | .text _ _ | .number _ _ | .boolean _ _ | .unary _ _ _ | .binary _ _ _ _ | .call _ _ _ => True

/-- No array is the result of a computation. -/
theorem Expr.isAtomic_of_eval {e : Expr} (computed : e.IsComputed) (draws : Nat → Number)
    (store : Store) : Gives Value.IsAtomic (e.eval draws store) := by
  cases e with
  | name | element => exact computed.elim
  | text | number | boolean =>
    rw [eval]
    exact gives_pure trivial
  | unary loc op a =>
    rw [eval]
    refine gives_bind fun v n w n' ran => ?_
    exact (Eval.atomicResult_unary op v).of_ok (Eval.located_eq_ok ran).1
  | binary loc op a b =>
    rw [eval]
    refine gives_bind fun lhs => gives_bind fun rhs n w n' ran => ?_
    exact (Eval.atomicResult_binary _ op lhs rhs).of_ok (Eval.located_eq_ok ran).1
  | call loc name args =>
    rw [eval]
    split
    · exact gives_fail
    · exact gives_bind fun vs => Eval.gives_call draws store loc _ vs

theorem Run.isAtomic_of_elementTarget {host : Host} {loc : Option Location} {name : Text}
    {index e : Expr} {store : Store} (computed : e.IsComputed) :
    Gives (fun target => target.2.2.IsAtomic) (elementTarget host loc name index e store) := by
  refine gives_bind fun id => gives_bind fun i => gives_bind fun slot n target n' ran => ?_
  obtain ⟨v, k, evaluated, rest⟩ := Action.bind_eq_ok.1 ran
  cases rest
  exact Expr.isAtomic_of_eval computed host.draws store evaluated

namespace Program

variable {turns : Nat} {host : Host} {p : Program} {channels : Channels}
  {past : List Occurrence} {m : Machine}

/-- A run has closed a cycle: one of its assignments to elements was executed with a value that
leads to the array that it changed. -/
inductive Closes (turns : Nat) (host : Host) (p : Program) (channels : Channels)
    (past : List Occurrence) : Prop where
  | intro {before later : List Occurrence} {loc : Option Location} {name : Text} {index e : Expr}
      {id slot n n' : Nat} {v : Value} {s after : Machine}
      (statement : .assignElement loc name index e ∈ p.statements)
      (reached : p.Reaches turns host channels before s)
      (computed : Run.elementTarget host loc name index e s.store n = (.ok (id, slot, v), n'))
      (executed : past = before ++ ⟨.storeElement id slot v, .ok (), after⟩ :: later)
      (inRange : slot < (s.store.arrays.elements id).size)
      (leads : s.store.arrays.LeadsTo v id)

theorem Closes.append (h : p.Closes turns host channels past) (rest : List Occurrence) :
    p.Closes turns host channels (past ++ rest) := by
  obtain ⟨statement, reached, computed, rfl, inRange, leads⟩ := h
  exact ⟨statement, reached, computed, by rw [List.append_assoc, List.cons_append], inRange, leads⟩

namespace Reaches

/-- An element was stored by an assignment of the program. -/
theorem exists_assignment {before later : List Occurrence} {id slot : Nat} {v : Value}
    {s after : Machine} (there : p.Reaches turns host channels before s)
    (reached : p.Reaches turns host channels
      (before ++ ⟨.storeElement id slot v, .ok (), after⟩ :: later) m) :
    ∃ loc name index e n n', .assignElement loc name index e ∈ p.statements ∧
      Run.elementTarget host loc name index e s.store n = (.ok (id, slot, v), n') := by
  obtain ⟨rest, split⟩ := reached.begins
  rw [List.append_assoc, List.cons_append] at split
  have assigns := (Script.closed_assigns (· ∈ p.statements) host).block turns p.body
    fun _ mem => mem
  rw [there.leads]
  exact (assigns ⟨.empty, 0, #[], channels⟩).of_history split.symm

/-- An effect that closes a cycle is that of an assignment of the program. -/
theorem closes {before : List Occurrence} {o : Occurrence} {s : Machine}
    (there : p.Reaches turns host channels before s)
    (reached : p.Reaches turns host channels (before ++ [o]) m) (closing : o.effect.Closes s) :
    p.Closes turns host channels (before ++ [o]) := by
  obtain ⟨s', there', _, performed⟩ := reached.exists_before
  obtain ⟨effect, answer, after⟩ := o
  cases effect with
  | storeElement id slot v =>
    cases performed
    obtain ⟨loc, name, index, e, n, n', statement, computed⟩ := there.exists_assignment reached
    exact ⟨statement, there, computed, rfl, closing.1, closing.2⟩
  | _ => exact closing.elim

/-- Where nothing has closed a cycle there is none. -/
theorem isAcyclic (reached : p.Reaches turns host channels past m)
    (apart : ¬ p.Closes turns host channels past) : m.store.arrays.IsAcyclic := by
  induction past using List.reverseRecOn generalizing m with
  | nil =>
    rw [reached.leads]
    exact Arrays.isAcyclic_empty
  | append_singleton before o ih =>
    obtain ⟨s, there, _, performed⟩ := reached.exists_before
    have unclosed : ¬ p.Closes turns host channels before := fun h => apart (h.append [o])
    rw [reached.leads, Occurrence.lead_snoc]
    refine Effect.isAcyclic_of_perform (ih there unclosed) (fun closing => ?_) performed
    exact apart (there.closes reached closing)

end Reaches

/-- Right after a cycle was closed there is one. -/
theorem Closes.exists_isCyclic (h : p.Closes turns host channels past)
    (reached : p.Reaches turns host channels past m) :
    ∃ before s id, before <+: past ∧ p.Reaches turns host channels before s ∧
      s.store.arrays.IsCyclic id := by
  obtain ⟨_, there, _, rfl, inRange, leads⟩ := h
  obtain ⟨s, there', next, performed⟩ := reached.exists_before
  cases there.leads.trans there'.leads.symm
  cases performed
  exact ⟨_, _, _, ⟨_, (List.append_cons _ _ _).symm⟩, next,
    Arrays.isCyclic_store inRange leads⟩

/-- A program that assigns only computed values to elements closes no cycle. -/
theorem not_closes_of_isComputed
    (plain : ∀ loc name index e, .assignElement loc name index e ∈ p.statements → e.IsComputed) :
    ¬ p.Closes turns host channels past := by
  rintro ⟨statement, _, computed, _, _, ⟨_⟩⟩
  exact Run.isAtomic_of_elementTarget (plain _ _ _ _ statement) computed

/-- **Arrays in arrays.** On the way to a state that a run comes to, no array was ever reachable
from itself exactly if no assignment to an element has closed a cycle. In that state a value has a
text exactly if it leads to no array that is reachable from itself, and the text is the one that the
run takes it to have. So all values have texts as long as nothing has closed a cycle. -/
theorem nesting_of_reaches (reached : p.Reaches turns host channels past m) :
    ((∀ before s, before <+: past → p.Reaches turns host channels before s →
        s.store.arrays.IsAcyclic) ↔ ¬ p.Closes turns host channels past) ∧
    (∀ (v : Value) (t : Text), v.HasText m.store.arrays t ↔
      v.IsGrounded m.store.arrays ∧ t = m.store.textOf v) ∧
    (¬ p.Closes turns host channels past →
      ∀ v : Value, v.HasText m.store.arrays (m.store.textOf v)) := by
  refine ⟨⟨fun acyclic closed => ?_, fun apart before s begins there => ?_⟩,
    fun v t => Value.hasText_iff, fun apart v => ?_⟩
  · obtain ⟨before, s, id, begins, there, cyclic⟩ := closed.exists_isCyclic reached
    exact acyclic before s begins there id cyclic
  · obtain ⟨later, rfl⟩ := begins
    exact there.isAcyclic fun closed => apart (closed.append later)
  · exact (reached.isAcyclic apart).hasText v

/-- An array that is an element of another one twice. -/
def nested : Text :=
  "algoritmo p
  dimension v[2]
  dimension a[2]
  v[2] <- \"x\"
  a[1] <- v
  a[2] <- a[1]
finalgoritmo"

theorem nesting_of_reaches_nested :
    ∃ p past m, ofSource nested = .ok p ∧ p.Reaches 0 {} (.initial {} (.lines [])) past m ∧
      m.store.arrays.cells = #[#[.uninitialized, .text "x"], #[.array 0, .array 0]] ∧
      ¬ p.Closes 0 {} (.initial {} (.lines [])) past ∧
      (Value.array 1).HasText m.store.arrays ",x,,x" := by
  have checked : (ofSource nested).toOption.any (fun p =>
      let store := (p.runFor 0 {} (.initial {} (.lines []))).1.store
      decide (store.arrays.cells = #[#[.uninitialized, .text "x"], #[.array 0, .array 0]] ∧
        store.textOf (.array 1) = (",x,,x" : Text) ∧
        ∀ o ∈ p.history 0 {} (.initial {} (.lines [])),
          ∀ i < o.after.store.arrays.cells.size, ∀ j < o.after.store.arrays.cells.size,
            o.after.store.arrays.Contains i j → j < i)) = true := by
    decide +kernel
  cases compiled : ofSource nested with
  | error =>
    rw [compiled] at checked
    cases checked
  | ok p =>
    rw [compiled] at checked
    obtain ⟨cells, text, older⟩ := of_decide_eq_true checked
    obtain ⟨m, reached, same, _⟩ := @reaches_report 0 {} p (.initial {} (.lines []))
    rw [same] at cells text
    obtain ⟨unclosed, _, texts⟩ := nesting_of_reaches reached
    have apart := unclosed.1 fun before s _ there =>
      there.holds (·.store.arrays.IsAcyclic) Arrays.isAcyclic_empty fun o mem =>
        Arrays.isAcyclic_of_lt (older o mem)
    exact ⟨p, _, m, rfl, reached, cells, apart, text ▸ texts apart (.array 1)⟩

/-- An array that is an element of itself. -/
def selfHolding : Text :=
  "algoritmo p
  dimension a[1]
  a[1] <- a
finalgoritmo"

/-- The program runs to its end, and the text of its array would not end. -/
theorem not_hasText_selfHolding :
    ∃ p m, ofSource selfHolding = .ok p ∧
      (p.runFor 0 {} (.initial {} (.lines []))).1.halt = none ∧
      p.Reaches 0 {} (.initial {} (.lines [])) (p.history 0 {} (.initial {} (.lines []))) m ∧
      m.store.get? "a" = some (.array 0) ∧ m.store.arrays.IsCyclic 0 ∧
      ∀ t, ¬ (Value.array 0).HasText m.store.arrays t := by
  have checked : (ofSource selfHolding).toOption.any (fun p =>
      let report := (p.runFor 0 {} (.initial {} (.lines []))).1
      decide (report.halt = none ∧ report.store.get? "a" = some (.array 0) ∧
        report.store.arrays.elements 0 = #[.array 0])) = true := by
    decide +kernel
  cases compiled : ofSource selfHolding with
  | error =>
    rw [compiled] at checked
    cases checked
  | ok p =>
    rw [compiled] at checked
    obtain ⟨ended, named, own⟩ := of_decide_eq_true checked
    obtain ⟨m, reached, same, _⟩ := @reaches_report 0 {} p (.initial {} (.lines []))
    rw [same] at named own
    have cyclic : m.store.arrays.IsCyclic 0 := by
      refine .single ?_
      rw [Arrays.Contains, own]
      exact Array.mem_singleton.2 rfl
    exact ⟨p, m, rfl, ended, reached, named, cyclic, fun t text =>
      text.isGrounded 0 (.chain .refl) cyclic⟩

end Program

end Pseudocode

import Mathlib.Data.List.Perm.Subperm
import Mathlib.Logic.Relation
import Pseudocode.Value.Basic

/-!
# Arrays in arrays

Any value can be an element of an array, so the arrays of a run are the nodes of a graph, with an
edge from an array to every array that it has as an element. An array may be an element of several
arrays, of itself, or of one that is an element of it.

The text of an array is made of the texts of its elements. The rule for this has no bound on how
deep it goes, and what it describes need not end: `Value.HasText` holds where it does, while
`Value.toText` cuts the rule at a depth, the number of all arrays. The main result is that a value
has a text exactly if it leads to no array that is reachable from itself, and that the cut does no
harm then: on the way down every array is a new one.
-/

namespace Pseudocode

open Relation (ReflTransGen TransGen)

namespace Arrays

/-- An array has an array as an element. -/
def Contains (a : Arrays) (i j : Nat) : Prop := .array j ∈ a.elements i

instance (a : Arrays) (i j : Nat) : Decidable (a.Contains i j) :=
  inferInstanceAs (Decidable (.array j ∈ a.elements i))

/-- An array is reachable from itself through a chain of elements. -/
def IsCyclic (a : Arrays) (i : Nat) : Prop := TransGen a.Contains i i

/-- No array is reachable from itself. -/
def IsAcyclic (a : Arrays) : Prop := ∀ i, ¬ a.IsCyclic i

/-- A value is an array, or one that the array is reachable from. -/
inductive LeadsTo (a : Arrays) : Value → Nat → Prop where
  | chain {i j : Nat} (steps : ReflTransGen a.Contains i j) : LeadsTo a (.array i) j

variable {a b : Arrays} {i j : Nat} {v : Value}

theorem elements_of_size_le (h : a.cells.size ≤ i) : a.elements i = #[] := by
  rw [elements, Array.getD_eq_getD_getElem?, Array.getElem?_eq_none h]
  rfl

theorem lt_size_of_mem (h : v ∈ a.elements i) : i < a.cells.size := by
  by_contra outside
  rw [elements_of_size_le (Nat.not_lt.1 outside)] at h
  exact absurd h (Array.not_mem_empty v)

/-- What an element leads to its array leads to. -/
theorem LeadsTo.outward (h : a.LeadsTo v j) (inside : v ∈ a.elements i) :
    a.LeadsTo (.array i) j := by
  obtain ⟨steps⟩ := h
  exact .chain (steps.head inside)

/-- Arrays without a cycle stay so when elements are taken out. -/
theorem IsAcyclic.mono (h : a.IsAcyclic) (fewer : ∀ i j, b.Contains i j → a.Contains i j) :
    b.IsAcyclic :=
  fun i cycle => h i (TransGen.mono fewer i i cycle)

/-- There is no cycle where arrays have older ones as elements only. -/
theorem isAcyclic_of_lt
    (older : ∀ i < a.cells.size, ∀ j < a.cells.size, a.Contains i j → j < i) : a.IsAcyclic := by
  have down {i j : Nat} (way : TransGen a.Contains i j) (inRange : j < a.cells.size) : j < i := by
    induction way with
    | single edge => exact older _ (lt_size_of_mem edge) _ inRange edge
    | tail _ edge ih =>
      have above := lt_size_of_mem edge
      exact Nat.lt_trans (older _ above _ inRange edge) (ih above)
  intro i cycle
  obtain ⟨j, edge, _⟩ := TransGen.head'_iff.1 cycle
  exact Nat.lt_irrefl i (down cycle (lt_size_of_mem edge))

/-- Arrays that a value was come to through, innermost first. Each of them is another one. -/
structure IsWayTo (a : Arrays) (above : List Nat) (v : Value) : Prop where
  distinct : above.Nodup
  among : ∀ i ∈ above, i < a.cells.size
  leads : ∀ i ∈ above, ∀ j, v = .array j → TransGen a.Contains i j

namespace IsWayTo

variable {above : List Nat}

theorem nil (a : Arrays) (v : Value) : a.IsWayTo [] v :=
  ⟨.nil, List.forall_mem_nil _, List.forall_mem_nil _⟩

theorem length_le (way : a.IsWayTo above v) : above.length ≤ a.cells.size := by
  have within : above ⊆ List.range a.cells.size := fun i mem => List.mem_range.2 (way.among i mem)
  simpa using (List.subperm_of_subset way.distinct within).length_le

/-- The way goes on to the elements of an array that is not reachable from itself. -/
theorem step (way : a.IsWayTo above (.array i)) (free : ¬ a.IsCyclic i)
    (inside : v ∈ a.elements i) : a.IsWayTo (i :: above) v where
  distinct := List.nodup_cons.2 ⟨fun again => free (way.leads i again i rfl), way.distinct⟩
  among := List.forall_mem_cons.2 ⟨lt_size_of_mem inside, way.among⟩
  leads := by
    refine List.forall_mem_cons.2 ⟨?_, fun k mem => ?_⟩
    · rintro j rfl
      exact .single inside
    · rintro j rfl
      exact (way.leads k mem i rfl).tail inside

end IsWayTo

end Arrays

namespace Value

/-- A value leads to no array that is reachable from itself. -/
def IsGrounded (a : Arrays) (v : Value) : Prop := ∀ i, a.LeadsTo v i → ¬ a.IsCyclic i

/-- A value has a text: the rule for it ends. Only the value and the arrays have a say in it, and an
array has one where all of its elements do. -/
inductive HasText (a : Arrays) : Value → Text → Prop where
  | uninitialized : HasText a .uninitialized Text.empty
  | number (n : Number) : HasText a (.number n) n.text
  | text (t : Text) : HasText a (.text t) t
  | boolean (b : Bool) : HasText a (.boolean b) (truthWord b)
  | foreign (kind : Int) : HasText a (.foreign kind) Text.empty
  | array {id : Nat} {texts : Value → Text}
      (each : ∀ v ∈ (a.elements id).toList, HasText a v (texts v)) :
      HasText a (.array id) (Text.join "," ((a.elements id).toList.map texts))

variable {a : Arrays} {v : Value} {t : Text}

/-- A value has at most one text. -/
theorem HasText.unique {u : Text} (h : v.HasText a t) (other : v.HasText a u) : t = u := by
  induction h generalizing u with
  | array each ih =>
    cases other with
    | array each' =>
      refine congrArg (Text.join ",") (List.map_congr_left fun w mem => ?_)
      exact ih w mem (each' w mem)
  | _ =>
    cases other
    rfl

/-- The text of an array that is reachable from itself would be made of a text that is made of it,
so no value with a text leads to one. -/
theorem HasText.isGrounded (h : v.HasText a t) : v.IsGrounded a := by
  induction h with
  | @array id texts each ih =>
    rintro i ⟨steps⟩ cycle
    -- The cycle is come to through an element, be it further down or at this array itself.
    obtain ⟨j, inside, rest⟩ : ∃ j, a.Contains id j ∧ ReflTransGen a.Contains j i := by
      rcases steps.cases_head with rfl | below
      · exact TransGen.head'_iff.1 cycle
      · exact below
    exact ih (.array j) (Array.mem_toList_iff.2 inside) i (.chain rest) cycle
  | _ =>
    rintro i ⟨⟩

/-- The cut does no harm where the arrays on the way to a value, and the depth that is left, are as
many as all arrays. -/
theorem hasText_textWithin {depth : Nat} {above : List Nat} (grounded : v.IsGrounded a)
    (way : a.IsWayTo above v) (enough : a.cells.size ≤ above.length + depth) :
    v.HasText a (textWithin a depth v) := by
  induction depth generalizing above v with
  | zero =>
    cases v with
    | array id =>
      have none : (a.elements id).toList = [] := by
        refine List.eq_nil_iff_forall_not_mem.2 fun w mem => ?_
        have next := way.step (grounded id (.chain .refl)) (Array.mem_toList_iff.1 mem)
        have length := next.length_le
        rw [List.length_cons] at length
        omega
      have each : ∀ w ∈ (a.elements id).toList, w.HasText a Text.empty := by
        rw [none]
        exact List.forall_mem_nil _
      have text := HasText.array each
      rw [none] at text
      exact text
    | _ =>
      rw [textWithin]
      constructor
  | succ depth ih =>
    cases v with
    | array id =>
      rw [textWithin]
      refine .array fun w mem => ?_
      have inside := Array.mem_toList_iff.1 mem
      have next := way.step (grounded id (.chain .refl)) inside
      refine ih (fun i leads => grounded i (leads.outward inside)) next ?_
      rw [List.length_cons]
      omega
    | _ =>
      rw [textWithin]
      constructor

/-- **Texts of values.** A value has a text exactly if it leads to no array that is reachable from
itself, and then `toText` is this text. -/
theorem hasText_iff : v.HasText a t ↔ v.IsGrounded a ∧ t = v.toText a := by
  have cut (grounded : v.IsGrounded a) : v.HasText a (v.toText a) :=
    hasText_textWithin grounded (.nil a v) (Nat.le_add_left _ _)
  constructor
  · intro h
    exact ⟨h.isGrounded, h.unique (cut h.isGrounded)⟩
  · rintro ⟨grounded, rfl⟩
    exact cut grounded

end Value

/-- Without a cycle all values have texts. -/
theorem Arrays.IsAcyclic.hasText {a : Arrays} (h : a.IsAcyclic) (v : Value) :
    v.HasText a (v.toText a) :=
  Value.hasText_iff.2 ⟨fun i _ => h i, rfl⟩

end Pseudocode

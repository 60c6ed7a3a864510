import Pseudocode.Proofs.Program.Fitness

/-!
# Variables that a loop has counted with

The counter of a loop is not the variable of the loop: each round binds the variable to the counter
anew, and when the loop ends the variable keeps what it had in the last round, if there was one. A
variable is stale once a loop has counted with it, and until something is assigned to it.

A program reads current values if no expression reads a stale variable and no loop has in its body a
statement that binds its variable. Such a program cannot tell whether a counter and its variable are
two things or one. The definition goes along the text, so that it can be computed.
-/

namespace Pseudocode

namespace Expr

/-- The variable that an expression reads itself. -/
def ownName? : Expr → Option Text
  | name _ x | element _ x _ => some x
  | text _ _ | number _ _ | boolean _ _ | unary _ _ _ | binary _ _ _ _ | call _ _ _ => none

/-- All variables that an expression reads. -/
def reads (e : Expr) : List Text := e.parts.filterMap ownName?

/-- None of some variables is read. -/
def Avoids (stale : List Text) (e : Expr) : Prop := ∀ x ∈ e.reads, x ∉ stale

instance (stale : List Text) (e : Expr) : Decidable (e.Avoids stale) :=
  inferInstanceAs (Decidable (∀ x ∈ e.reads, x ∉ stale))

namespace Avoids

variable {stale : List Text} {loc : Option Location}

theorem nil (e : Expr) : e.Avoids [] := fun _ _ => List.not_mem_nil

theorem name {x : Text} (h : (name loc x).Avoids stale) : x ∉ stale :=
  h x (by simp [reads, parts, ownName?])

theorem operands {op : BinaryOp} {a b : Expr} (h : (binary loc op a b).Avoids stale) :
    a.Avoids stale ∧ b.Avoids stale := by
  have reads : (binary loc op a b).reads = a.reads ++ b.reads := by
    simp only [Expr.reads, parts, List.filterMap_cons, ownName?, List.filterMap_append]
  rw [Avoids, reads] at h
  exact List.forall_mem_append.1 h

theorem argument {function : Text} {arg : Expr} (h : (call loc function [arg]).Avoids stale) :
    arg.Avoids stale := by
  simpa [Avoids, reads, parts, partsOfAll, ownName?] using h

end Avoids

end Expr

/-- The variables that loops among some statements count with. -/
def counters (ss : List Stmt) : List Text :=
  ss.filterMap fun
    | .forLoop _ var _ _ _ _ => some var
    | _ => none

@[simp] theorem counters_append (ss ts : List Stmt) :
    counters (ss ++ ts) = counters ss ++ counters ts :=
  List.filterMap_append

theorem append_counters_subset {stale : List Text} {ss ts : List Stmt} (among : ss ⊆ ts) :
    stale ++ counters ss ⊆ stale ++ counters ts := by
  intro x hx
  rcases List.mem_append.1 hx with h | h
  · exact List.mem_append_left _ h
  · obtain ⟨s, hs, counts⟩ := List.mem_filterMap.1 h
    exact List.mem_append_right _ (List.mem_filterMap.2 ⟨s, among hs, counts⟩)

/-- A loop binds the variable that it counts with. -/
theorem exists_assigned_of_mem_counters {ss : List Stmt} {x : Text} (h : x ∈ counters ss) :
    ∃ s ∈ ss, x ∈ s.assigned := by
  obtain ⟨s, hs, counts⟩ := List.mem_filterMap.1 h
  split at counts
  · cases counts
    exact ⟨_, hs, List.mem_singleton_self _⟩
  · cases counts

namespace Stmt

/-- What is stale after a statement. -/
def staleAfter (stale : List Text) : Stmt → List Text
  | assign _ x _ => stale.filter (· ≠ x)
  | s => stale ++ counters s.parts

/-- What may be stale where a statement evaluates its own expressions and where its blocks begin. A
block of a loop may follow itself. -/
def staleWithin (stale : List Text) : Stmt → List Text
  | whileLoop _ _ body | repeatLoop _ body _ => stale ++ counters (partsOfBlock body)
  | forLoop _ var _ _ _ body => (stale ++ counters (partsOfBlock body)).filter (· ≠ var)
  | _ => stale

end Stmt

theorem Stmt.staleAfter_subset (stale : List Text) (s : Stmt) :
    s.staleAfter stale ⊆ stale ++ counters s.parts := by
  intro x hx
  rw [staleAfter.eq_def] at hx
  split at hx
  · exact List.mem_append_left _ (List.mem_filter.1 hx).1
  · exact hx

/-- What is stale after statements one after another. -/
theorem append_counters_cons_subset (stale : List Text) (s : Stmt) (rest : List Stmt) :
    s.staleAfter stale ++ counters (partsOfBlock rest) ⊆
      stale ++ counters (partsOfBlock (s :: rest)) := by
  rw [partsOfBlock, counters_append, ← List.append_assoc]
  exact List.append_subset.2 ⟨fun _ hx => List.mem_append_left _ (s.staleAfter_subset stale hx),
    List.subset_append_right _ _⟩

namespace Stmt

variable (stale : List Text) (loc : Option Location) (var : Text) (first last step : Number)
  (body : List Stmt)

/-- A loop makes its variable stale, and the variables of the loops in its body. -/
theorem staleAfter_forLoop : (forLoop loc var first last step body).staleAfter stale =
    stale ++ var :: counters (partsOfBlock body) := by
  simp [staleAfter, parts, counters]

/-- In the body of a loop its variable is not stale. -/
theorem filter_staleAfter_forLoop :
    ((forLoop loc var first last step body).staleAfter stale).filter (· ≠ var) =
      (forLoop loc var first last step body).staleWithin stale := by
  simp [staleAfter_forLoop, staleWithin]

/-- What is stale after the body of a loop is stale after the loop. -/
theorem staleWithin_forLoop_subset :
    (forLoop loc var first last step body).staleWithin stale ++ counters (partsOfBlock body) ⊆
      (forLoop loc var first last step body).staleAfter stale := by
  rw [staleAfter_forLoop]
  intro x hx
  rcases List.mem_append.1 hx with hx | hx
  · have mem : x ∈ stale ++ counters (partsOfBlock body) := (List.mem_filter.1 hx).1
    rcases List.mem_append.1 mem with h | h
    · exact List.mem_append_left _ h
    · exact List.mem_append_right _ (List.mem_cons_of_mem _ h)
  · exact List.mem_append_right _ (List.mem_cons_of_mem _ hx)

variable {var body}

/-- A body that does not bind the variable of the loop does not make it stale. -/
theorem not_mem_staleWithin_forLoop (unbound : ∀ a ∈ partsOfBlock body, var ∉ a.assigned) :
    var ∉ (forLoop loc var first last step body).staleWithin stale ++
      counters (partsOfBlock body) := by
  intro mem
  rcases List.mem_append.1 mem with within | counts
  · simp [staleWithin] at within
  · obtain ⟨a, ha, binds⟩ := exists_assigned_of_mem_counters counts
    exact unbound a ha binds

end Stmt

mutual

/-- Whether a statement reads current values. -/
def Stmt.readsCurrent (stale : List Text) (s : Stmt) : Bool :=
  decide (∀ e ∈ s.operands, e.Avoids (s.staleWithin stale)) &&
    match s with
    | .branch _ _ yes no => blockReadsCurrent stale yes && elseReadsCurrent stale no
    | .select _ _ cases otherwise =>
      casesReadCurrent stale cases && blockReadsCurrent stale otherwise
    | .whileLoop _ _ body | .repeatLoop _ body _ => blockReadsCurrent (s.staleWithin stale) body
    | .forLoop _ var _ _ _ body =>
      decide (∀ a ∈ partsOfBlock body, var ∉ a.assigned) &&
        blockReadsCurrent (s.staleWithin stale) body
    | .assign _ _ _ | .dimension _ _ _ | .assignElement _ _ _ _ | .print _ _ | .read _ _ => true

/-- Whether statements one after another read current values. -/
def blockReadsCurrent (stale : List Text) : List Stmt → Bool
  | [] => true
  | s :: rest => s.readsCurrent stale && blockReadsCurrent (s.staleAfter stale) rest

/-- Whether the second branch reads current values. -/
def elseReadsCurrent (stale : List Text) : Option (List Stmt) → Bool
  | none => true
  | some body => blockReadsCurrent stale body

/-- Whether the blocks of cases read current values. -/
def casesReadCurrent (stale : List Text) : List (Expr × List Stmt) → Bool
  | [] => true
  | (_, body) :: rest => blockReadsCurrent stale body && casesReadCurrent stale rest

end

-- Where no loop counts, nothing is ever stale.
mutual

theorem Stmt.readsCurrent_of_counters {s : Stmt} (h : counters s.parts = []) :
    s.readsCurrent [] = true := by
  have within : s.staleWithin [] = [] := by
    rw [Stmt.staleWithin.eq_def]
    split <;> simp_all [Stmt.parts, counters]
  rw [Stmt.readsCurrent.eq_def, within, Bool.and_eq_true, decide_eq_true_eq]
  refine ⟨fun e _ => Expr.Avoids.nil e, ?_⟩
  match s with
  | .assign _ _ _ | .dimension _ _ _ | .assignElement _ _ _ _ | .print _ _ | .read _ _ => rfl
  | .branch _ _ yes no =>
    have parts : counters (partsOfBlock yes ++ partsOfElse no) = [] := h
    rw [counters_append, List.append_eq_nil_iff] at parts
    exact Bool.and_eq_true_iff.2 ⟨readsCurrent_block_of_counters parts.1,
      readsCurrent_else_of_counters parts.2⟩
  | .select _ _ cases otherwise =>
    have parts : counters (partsOfCases cases ++ partsOfBlock otherwise) = [] := h
    rw [counters_append, List.append_eq_nil_iff] at parts
    exact Bool.and_eq_true_iff.2 ⟨readsCurrent_cases_of_counters parts.1,
      readsCurrent_block_of_counters parts.2⟩
  | .whileLoop _ _ body | .repeatLoop _ body _ => exact readsCurrent_block_of_counters h
  | .forLoop _ _ _ _ _ _ => cases h

theorem readsCurrent_block_of_counters {ss : List Stmt} (h : counters (partsOfBlock ss) = []) :
    blockReadsCurrent [] ss = true := by
  match ss with
  | [] => rfl
  | s :: rest =>
    rw [partsOfBlock, counters_append, List.append_eq_nil_iff] at h
    have after : s.staleAfter [] ⊆ [] ++ counters s.parts := s.staleAfter_subset []
    rw [h.1, List.append_nil, List.subset_nil] at after
    rw [blockReadsCurrent, after, Bool.and_eq_true]
    exact ⟨Stmt.readsCurrent_of_counters h.1, readsCurrent_block_of_counters h.2⟩

theorem readsCurrent_else_of_counters {no : Option (List Stmt)}
    (h : counters (partsOfElse no) = []) : elseReadsCurrent [] no = true := by
  match no with
  | none => rfl
  | some _ => exact readsCurrent_block_of_counters h

theorem readsCurrent_cases_of_counters {cases : List (Expr × List Stmt)}
    (h : counters (partsOfCases cases) = []) : casesReadCurrent [] cases = true := by
  match cases with
  | [] => rfl
  | (_, body) :: rest =>
    rw [partsOfCases, counters_append, List.append_eq_nil_iff] at h
    rw [casesReadCurrent, Bool.and_eq_true]
    exact ⟨readsCurrent_block_of_counters h.1, readsCurrent_cases_of_counters h.2⟩

end

/-- Whether a program reads current values. -/
def Program.readsCurrent (p : Program) : Bool := blockReadsCurrent [] p.body

end Pseudocode

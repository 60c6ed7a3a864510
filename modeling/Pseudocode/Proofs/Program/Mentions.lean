import Pseudocode.Proofs.Program.Parts

/-!
# Where the text of a program names variables

The variables of a program in the order of its text: where an expression reads one, and where a
statement binds one. A statement is taken to bind its variable behind the expressions that it has
itself, but a counting loop binds its variable in front of its body.
-/

namespace Pseudocode

/-- A place in the text where a variable is read or bound. -/
inductive Mention where
  | read (loc : Option Location) (name : Text)
  | bind (name : Text)
  deriving DecidableEq

/-- The variable that is read or bound. -/
def Mention.name : Mention → Text
  | read _ x => x
  | bind x => x

mutual

/-- The variables that an expression reads, in the order of the text. -/
def Expr.mentions : Expr → List Mention
  | .text _ _ | .number _ _ | .boolean _ _ => []
  | .name loc x => [.read loc x]
  | .unary _ _ a => a.mentions
  | .binary _ _ a b => a.mentions ++ b.mentions
  | .element loc array index => .read loc array :: index.mentions
  | .call _ _ args => mentionsOfAll args

/-- The variables that expressions read. -/
def mentionsOfAll : List Expr → List Mention
  | [] => []
  | e :: rest => e.mentions ++ mentionsOfAll rest

end

mutual

/-- The variables that a statement reads and binds, in the order of the text. -/
def Stmt.mentions : Stmt → List Mention
  | .assign _ name e | .dimension _ name e => e.mentions ++ [.bind name]
  | .assignElement loc array index e => .read loc array :: (index.mentions ++ e.mentions)
  | .print _ exprs => mentionsOfAll exprs
  | .read _ targets => targets.map fun t => .bind t.name
  | .branch _ cond yes no => cond.mentions ++ (mentionsOfBlock yes ++ mentionsOfElse no)
  | .select _ subject cases otherwise =>
    subject.mentions ++ (mentionsOfCases cases ++ mentionsOfBlock otherwise)
  | .whileLoop _ cond body => cond.mentions ++ mentionsOfBlock body
  | .repeatLoop _ body cond => mentionsOfBlock body ++ cond.mentions
  | .forLoop _ var _ _ _ body => .bind var :: mentionsOfBlock body

/-- The variables that statements read and bind. -/
def mentionsOfBlock : List Stmt → List Mention
  | [] => []
  | s :: rest => s.mentions ++ mentionsOfBlock rest

/-- The variables that the second branch reads and binds. -/
def mentionsOfElse : Option (List Stmt) → List Mention
  | none => []
  | some body => mentionsOfBlock body

/-- The variables that the labels and blocks of cases read and bind. -/
def mentionsOfCases : List (Expr × List Stmt) → List Mention
  | [] => []
  | (label, body) :: rest => label.mentions ++ (mentionsOfBlock body ++ mentionsOfCases rest)

end

theorem mentionsOfAll_eq (es : List Expr) : mentionsOfAll es = es.flatMap Expr.mentions := by
  induction es with
  | nil => rfl
  | cons e rest ih => rw [mentionsOfAll, ih, List.flatMap_cons]

theorem mentions_subset_of_mem {e : Expr} {es : List Expr} (mem : e ∈ es) :
    e.mentions ⊆ mentionsOfAll es := by
  rw [mentionsOfAll_eq]
  exact fun m read => List.mem_flatMap_of_mem mem read

theorem mentionsOfAll_labels (cases : List (Expr × List Stmt)) :
    mentionsOfAll (cases.map (·.1)) ⊆ mentionsOfCases cases := by
  induction cases with
  | nil => exact List.nil_subset _
  | cons c rest ih =>
    rw [List.map_cons, mentionsOfAll, mentionsOfCases]
    refine List.append_subset.2 ⟨List.subset_append_left _ _, ?_⟩
    exact List.subset_append_of_subset_right _ (List.subset_append_of_subset_right _ ih)

theorem Stmt.mentions_operands (s : Stmt) : mentionsOfAll s.operands ⊆ s.mentions := by
  have single (e : Expr) : mentionsOfAll [e] = e.mentions := by
    rw [mentionsOfAll, mentionsOfAll, List.append_nil]
  cases s with
  | assign | dimension | branch | whileLoop =>
    rw [operands, single, mentions]
    exact List.subset_append_left _ _
  | repeatLoop =>
    rw [operands, single, mentions]
    exact List.subset_append_right _ _
  | assignElement =>
    rw [operands, mentionsOfAll, single, mentions]
    exact List.subset_cons_self _ _
  | print =>
    rw [operands, mentions]
    exact List.Subset.refl _
  | select _ subject cases otherwise =>
    rw [operands, mentionsOfAll, mentions]
    refine List.append_subset.2 ⟨List.subset_append_left _ _, ?_⟩
    exact List.subset_append_of_subset_right _
      (List.subset_append_of_subset_left _ (mentionsOfAll_labels cases))
  | read | forLoop =>
    rw [operands, mentionsOfAll]
    exact List.nil_subset _

-- What is read further in is read in the text around it; the recursion is that of the program.
mutual

theorem Stmt.mentions_parts (s : Stmt) :
    ∀ t ∈ s.parts, mentionsOfAll t.operands ⊆ s.mentions := by
  rw [Stmt.parts.eq_def, List.forall_mem_cons]
  refine ⟨s.mentions_operands, ?_⟩
  match s with
  | .branch _ _ yes no =>
    rw [Stmt.mentions]
    refine List.forall_mem_append.2 ⟨fun t mem => ?_, fun t mem => ?_⟩
    · exact List.subset_append_of_subset_right _
        (List.subset_append_of_subset_left _ (mentions_partsOfBlock yes t mem))
    · exact List.subset_append_of_subset_right _
        (List.subset_append_of_subset_right _ (mentions_partsOfElse no t mem))
  | .select _ _ cases otherwise =>
    rw [Stmt.mentions]
    refine List.forall_mem_append.2 ⟨fun t mem => ?_, fun t mem => ?_⟩
    · exact List.subset_append_of_subset_right _
        (List.subset_append_of_subset_left _ (mentions_partsOfCases cases t mem))
    · exact List.subset_append_of_subset_right _
        (List.subset_append_of_subset_right _ (mentions_partsOfBlock otherwise t mem))
  | .whileLoop _ _ body =>
    rw [Stmt.mentions]
    exact fun t mem => List.subset_append_of_subset_right _ (mentions_partsOfBlock body t mem)
  | .repeatLoop _ body _ =>
    rw [Stmt.mentions]
    exact fun t mem => List.subset_append_of_subset_left _ (mentions_partsOfBlock body t mem)
  | .forLoop _ _ _ _ _ body =>
    rw [Stmt.mentions]
    exact fun t mem => List.subset_cons_of_subset _ (mentions_partsOfBlock body t mem)
  | .assign _ _ _ | .dimension _ _ _ | .assignElement _ _ _ _ | .print _ _ | .read _ _ =>
    exact List.forall_mem_nil _

theorem mentions_partsOfBlock (ss : List Stmt) :
    ∀ t ∈ partsOfBlock ss, mentionsOfAll t.operands ⊆ mentionsOfBlock ss := by
  match ss with
  | [] => exact List.forall_mem_nil _
  | s :: rest =>
    rw [partsOfBlock, mentionsOfBlock]
    refine List.forall_mem_append.2 ⟨fun t mem => ?_, fun t mem => ?_⟩
    · exact List.subset_append_of_subset_left _ (s.mentions_parts t mem)
    · exact List.subset_append_of_subset_right _ (mentions_partsOfBlock rest t mem)

theorem mentions_partsOfElse (no : Option (List Stmt)) :
    ∀ t ∈ partsOfElse no, mentionsOfAll t.operands ⊆ mentionsOfElse no := by
  match no with
  | none => exact List.forall_mem_nil _
  | some body =>
    rw [partsOfElse, mentionsOfElse]
    exact mentions_partsOfBlock body

theorem mentions_partsOfCases (cases : List (Expr × List Stmt)) :
    ∀ t ∈ partsOfCases cases, mentionsOfAll t.operands ⊆ mentionsOfCases cases := by
  match cases with
  | [] => exact List.forall_mem_nil _
  | (label, body) :: rest =>
    rw [partsOfCases, mentionsOfCases]
    refine List.forall_mem_append.2 ⟨fun t mem => ?_, fun t mem => ?_⟩
    · exact List.subset_append_of_subset_right _
        (List.subset_append_of_subset_left _ (mentions_partsOfBlock body t mem))
    · exact List.subset_append_of_subset_right _
        (List.subset_append_of_subset_right _ (mentions_partsOfCases rest t mem))

end

namespace Program

/-- The variables that a program reads and binds, in the order of its text. -/
def mentions (p : Program) : List Mention := mentionsOfBlock p.body

/-- The variables of a program. -/
def variableNames (p : Program) : List Text := p.mentions.map Mention.name

end Program

end Pseudocode

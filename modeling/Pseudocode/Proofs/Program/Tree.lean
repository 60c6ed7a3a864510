import Mathlib
import Pseudocode.Program.Dump
import Pseudocode.Proofs.Number.Reading
import Pseudocode.Proofs.Program.Fitness
import Pseudocode.Proofs.Token.Rendering

/-!
# A node tree tells a whole program

Two programs of two sources that have the same node tree are the same program, places included. What
a tree leaves out is the sign of a zero, and in a source only the bounds and the step of a `Para`
can have one.

A mapping begins with the kind of its node, so the kinds are told apart. The place follows, and no
part of a node has its key. What is left is to read the parts back, and there a source helps: its
operators are those of the language, which are written in different ways, and its numbers have no
signs. A host could build an operator of its own that is written like another one.
-/

namespace Pseudocode

open Yaml

namespace Text

theorem ofInt_eq (i : Int) :
    ofInt i = ofChars (Numeral.withSign (decide (i < 0)) (Nat.toDigits 10 i.natAbs)) := by
  rw [ofInt, Numeral.withSign]
  simp only [decide_eq_true_eq]
  split
  · rw [ofNat, ← List.singleton_append, ofChars_append]
    rfl
  · rfl

end Text

section Places

variable {i j : Int} {l l' : Location}

/-- A digit is no mark. -/
theorem not_mem_toDigits {c : Char} (mark : c.toNat < 48 ∨ 57 < c.toNat) (n : Nat) :
    c ∉ Nat.toDigits 10 n := by
  intro mem
  have bounds := isDigit_iff.1 (Numeral.isDigit_of_mem_toDigits mem)
  omega

/-- An integer is read off its sign and its digits. -/
theorem withSign_toDigits_inj
    (same : Numeral.withSign (decide (i < 0)) (Nat.toDigits 10 i.natAbs) =
      Numeral.withSign (decide (j < 0)) (Nat.toDigits 10 j.natAbs)) : i = j := by
  have unsigned (n : Nat) (cs : List Char) : Nat.toDigits 10 n ≠ '-' :: cs := fun h =>
    not_mem_toDigits (.inl (by decide)) n (h ▸ List.mem_cons_self)
  simp only [Numeral.withSign, decide_eq_true_eq] at same
  split at same
  · split at same
    · have digits := Text.ofNat_injective (congrArg Text.ofChars (List.cons.inj same).2)
      omega
    · exact absurd same.symm (unsigned _ _)
  · split at same
    · exact absurd same (unsigned _ _)
    · have digits := Text.ofNat_injective (congrArg Text.ofChars same)
      omega

/-- A place is read off its text. -/
theorem Location.text_inj (same : l.text = l'.text) : l = l' := by
  have colon (i : Int) :
      ':' ∉ Numeral.withSign (decide (i < 0)) (Nat.toDigits 10 i.natAbs) := by
    have digits := not_mem_toDigits (c := ':') (.inr (by decide)) i.natAbs
    rw [Numeral.withSign]
    split
    · exact fun mem => (List.mem_cons.1 mem).elim (by decide) digits
    · exact digits
  have written (l : Location) : l.text = Text.ofChars
      (Numeral.withSign (decide (l.line < 0)) (Nat.toDigits 10 l.line.natAbs) ++
        ':' :: Numeral.withSign (decide (l.column < 0)) (Nat.toDigits 10 l.column.natAbs)) := by
    rw [text, Text.ofInt_eq, Text.ofInt_eq, ← List.singleton_append, Text.ofChars_append,
      Text.ofChars_append, Text.append_assoc]
    rfl
  rw [written, written] at same
  obtain ⟨line, -, column⟩ :=
    (List.append_cons_inj_of_notMem (colon _) (colon _)).1 (Text.ofChars_injective same)
  cases l
  cases l'
  cases withSign_toDigits_inj line
  cases withSign_toDigits_inj column
  rfl

end Places

section Nodes

variable {kind kind' : String} {loc loc' : Option Location} {parts parts' : List (String × Node)}

theorem string_inj {t t' : Text} : Node.string t = Node.string t' ↔ t = t' := by
  rw [Node.string, Node.string, Node.scalar.injEq, Scalar.string.injEq]

theorem bare_inj {t t' : Text} : Node.bare t = Node.bare t' ↔ t = t' := by
  rw [Node.bare, Node.bare, Node.scalar.injEq, Scalar.bare.injEq]

/-- Kind, place and parts of a node are read off its mapping, where no part has the key of the
place. -/
theorem located_inj (free : ∀ p ∈ parts, p.1 ≠ "at") (free' : ∀ p ∈ parts', p.1 ≠ "at")
    (same : located kind loc parts = located kind' loc' parts') :
    kind = kind' ∧ loc = loc' ∧ parts = parts' := by
  obtain ⟨first, rest⟩ := List.cons.inj (Node.mapping.inj same)
  have kinds : kind = kind' :=
    String.toList_inj.1 (Text.ofChars_injective (string_inj.1 (Prod.mk.inj first).2))
  cases loc with
  | none =>
    cases loc' with
    | none => exact ⟨kinds, rfl, rest⟩
    | some l' =>
      have keyed : parts = ("at", .string l'.text) :: parts' := rest
      exact absurd rfl (free _ (keyed ▸ List.mem_cons_self))
  | some l =>
    cases loc' with
    | none =>
      have keyed : ("at", .string l.text) :: parts = parts' := rest
      exact absurd rfl (free' _ (keyed ▸ List.mem_cons_self))
    | some l' =>
      obtain ⟨place, parts⟩ := List.cons.inj rest
      have places := Location.text_inj (string_inj.1 (Prod.mk.inj place).2)
      exact ⟨kinds, congrArg some places, parts⟩

end Nodes

/-- An expression that is told from any other by its node tree: its operators are those of the
language, and its numbers have no signs. -/
def Expr.IsClear : Expr → Prop
  | .number _ n => n.isNegative = false
  | .unary _ op _ => op = .negate
  | .binary _ op _ _ => op ∈ BinaryOp.known
  | .text _ _ | .boolean _ _ | .name _ _ | .element _ _ _ | .call _ _ _ => True

namespace Expr

/-- The kind of an expression in a node tree. -/
def kind : Expr → String
  | text _ _ => "String"
  | number _ _ => "Number"
  | boolean _ _ => "Boolean"
  | name _ _ => "Identifier"
  | unary _ _ _ => "Unary"
  | binary _ _ _ _ => "Binary"
  | element _ _ _ => "ArrayAccess"
  | call _ _ _ => "Call"

/-- The parts of an expression in a node tree. -/
def entries : Expr → List (String × Node)
  | text _ t => [("value", .string t)]
  | number _ n => [("value", .bare n.text)]
  | boolean _ b => [("value", .bare (if b then "true" else "false"))]
  | name _ n => [("name", .string n)]
  | unary _ op e => [("op", .string op.symbol), ("operand", e.toYaml)]
  | binary _ op a b => [("op", .string op.symbol), ("left", a.toYaml), ("right", b.toYaml)]
  | element _ n i => [("name", .string n), ("index", i.toYaml)]
  | call _ n args => [("name", .string n), ("args", .sequence (exprsToYaml args))]

theorem toYaml_eq (e : Expr) : e.toYaml = located e.kind e.loc e.entries := by
  cases e with
  | _ => rw [toYaml]; rfl

theorem entries_free (e : Expr) : ∀ p ∈ e.entries, p.1 ≠ "at" := by
  cases e with
  | _ => simp [entries]

theorem toYaml_inj {e e' : Expr} (same : e.toYaml = e'.toYaml) :
    e.kind = e'.kind ∧ e.loc = e'.loc ∧ e.entries = e'.entries := by
  rw [toYaml_eq, toYaml_eq] at same
  exact located_inj e.entries_free e'.entries_free same

end Expr

theorem BinaryOp.symbol_inj {op op' : BinaryOp} (mem : op ∈ known) (mem' : op' ∈ known)
    (same : op.symbol = op'.symbol) : op = op' := by
  have all : ∀ op ∈ known, ∀ op' ∈ known, op.symbol = op'.symbol → op = op' := by decide
  exact all op mem op' mem' same

theorem Number.eq_of_text_eq {x y : Number} (positive : x.isNegative = false)
    (positive' : y.isNegative = false) (same : x.text = y.text) : x = y := by
  have unsigned := text_inj same
  rwa [unsigned_eq_self positive, unsigned_eq_self positive'] at unsigned

theorem truth_inj {b b' : Bool} (same : (if b then Text.ofString "true" else Text.ofString "false") =
    if b' then Text.ofString "true" else Text.ofString "false") : b = b' := by
  revert b b'
  decide

-- The recursion is that of expressions. The kinds are equal, so one constructor meets itself.
mutual

theorem Expr.eq_of_toYaml_eq (e e' : Expr) (clear : ∀ a ∈ e.parts, a.IsClear)
    (clear' : ∀ a ∈ e'.parts, a.IsClear) (same : e.toYaml = e'.toYaml) : e = e' := by
  obtain ⟨kinds, places, entries⟩ := Expr.toYaml_inj same
  match e with
  | .text l t =>
    cases e' with
    | text l' t' =>
      obtain rfl : l = l' := places
      simp only [Expr.entries, List.cons.injEq, Prod.mk.injEq, string_inj] at entries
      rw [entries.1.2]
    | _ => exact absurd kinds (by simp [Expr.kind])
  | .number l n =>
    cases e' with
    | number l' n' =>
      obtain rfl : l = l' := places
      simp only [Expr.entries, List.cons.injEq, Prod.mk.injEq, bare_inj] at entries
      have positive : n.isNegative = false := clear _ List.mem_cons_self
      have positive' : n'.isNegative = false := clear' _ List.mem_cons_self
      rw [Number.eq_of_text_eq positive positive' entries.1.2]
    | _ => exact absurd kinds (by simp [Expr.kind])
  | .boolean l b =>
    cases e' with
    | boolean l' b' =>
      obtain rfl : l = l' := places
      simp only [Expr.entries, List.cons.injEq, Prod.mk.injEq, bare_inj] at entries
      rw [truth_inj entries.1.2]
    | _ => exact absurd kinds (by simp [Expr.kind])
  | .name l n =>
    cases e' with
    | name l' n' =>
      obtain rfl : l = l' := places
      simp only [Expr.entries, List.cons.injEq, Prod.mk.injEq, string_inj] at entries
      rw [entries.1.2]
    | _ => exact absurd kinds (by simp [Expr.kind])
  | .unary l op a =>
    cases e' with
    | unary l' op' a' =>
      obtain rfl : l = l' := places
      simp only [Expr.entries, List.cons.injEq, Prod.mk.injEq] at entries
      simp only [Expr.parts, List.forall_mem_cons] at clear clear'
      obtain rfl : op = .negate := clear.1
      obtain rfl : op' = .negate := clear'.1
      rw [a.eq_of_toYaml_eq a' clear.2 clear'.2 entries.2.1.2]
    | _ => exact absurd kinds (by simp [Expr.kind])
  | .binary l op a b =>
    cases e' with
    | binary l' op' a' b' =>
      obtain rfl : l = l' := places
      simp only [Expr.entries, List.cons.injEq, Prod.mk.injEq, string_inj] at entries
      simp only [Expr.parts, List.forall_mem_cons, List.forall_mem_append] at clear clear'
      obtain rfl := BinaryOp.symbol_inj clear.1 clear'.1 entries.1.2
      rw [a.eq_of_toYaml_eq a' clear.2.1 clear'.2.1 entries.2.1.2,
        b.eq_of_toYaml_eq b' clear.2.2 clear'.2.2 entries.2.2.1.2]
    | _ => exact absurd kinds (by simp [Expr.kind])
  | .element l n i =>
    cases e' with
    | element l' n' i' =>
      obtain rfl : l = l' := places
      simp only [Expr.entries, List.cons.injEq, Prod.mk.injEq, string_inj] at entries
      simp only [Expr.parts, List.forall_mem_cons] at clear clear'
      rw [entries.1.2, i.eq_of_toYaml_eq i' clear.2 clear'.2 entries.2.1.2]
    | _ => exact absurd kinds (by simp [Expr.kind])
  | .call l n args =>
    cases e' with
    | call l' n' args' =>
      obtain rfl : l = l' := places
      simp only [Expr.entries, List.cons.injEq, Prod.mk.injEq, string_inj,
        Node.sequence.injEq] at entries
      simp only [Expr.parts, List.forall_mem_cons] at clear clear'
      rw [entries.1.2, eq_of_exprsToYaml_eq args args' clear.2 clear'.2 entries.2.1.2]
    | _ => exact absurd kinds (by simp [Expr.kind])

theorem eq_of_exprsToYaml_eq (es es' : List Expr) (clear : ∀ a ∈ partsOfAll es, a.IsClear)
    (clear' : ∀ a ∈ partsOfAll es', a.IsClear) (same : exprsToYaml es = exprsToYaml es') :
    es = es' := by
  match es with
  | [] =>
    cases es' with
    | nil => rfl
    | cons e' rest' => cases same
  | e :: rest =>
    cases es' with
    | nil => cases same
    | cons e' rest' =>
      obtain ⟨first, later⟩ := List.cons.inj same
      simp only [partsOfAll, List.forall_mem_append] at clear clear'
      rw [e.eq_of_toYaml_eq e' clear.1 clear'.1 first,
        eq_of_exprsToYaml_eq rest rest' clear.2 clear'.2 later]

end

theorem Target.eq_of_toYaml_eq {t t' : Target} (same : t.toYaml = t'.toYaml) : t = t' := by
  obtain ⟨-, places, entries⟩ := Expr.toYaml_inj same
  simp only [Expr.entries, List.cons.injEq, Prod.mk.injEq, string_inj] at entries
  obtain ⟨l, n⟩ := t
  obtain ⟨l', n'⟩ := t'
  obtain rfl : l = l' := places
  obtain rfl : n = n' := entries.1.2
  rfl

mutual

/-- A statement without the signs of zeros in the bounds and steps of loops. -/
def Stmt.unsigned : Stmt → Stmt
  | .branch l cond yes no => .branch l cond (unsignedBlock yes) (unsignedElse no)
  | .select l subject cases otherwise =>
    .select l subject (unsignedCases cases) (unsignedBlock otherwise)
  | .whileLoop l cond body => .whileLoop l cond (unsignedBlock body)
  | .repeatLoop l body cond => .repeatLoop l (unsignedBlock body) cond
  | .forLoop l var first last step body =>
    .forLoop l var first.unsigned last.unsigned step.unsigned (unsignedBlock body)
  | .assign l n e => .assign l n e
  | .dimension l n e => .dimension l n e
  | .assignElement l n i e => .assignElement l n i e
  | .print l es => .print l es
  | .read l ts => .read l ts

/-- Statements without the signs of zeros. -/
def unsignedBlock : List Stmt → List Stmt
  | [] => []
  | s :: rest => s.unsigned :: unsignedBlock rest

/-- A second branch without the signs of zeros. -/
def unsignedElse : Option (List Stmt) → Option (List Stmt)
  | none => none
  | some body => some (unsignedBlock body)

/-- Cases without the signs of zeros. -/
def unsignedCases : List (Expr × List Stmt) → List (Expr × List Stmt)
  | [] => []
  | (label, body) :: rest => (label, unsignedBlock body) :: unsignedCases rest

end

namespace Stmt

/-- The kind of a statement in a node tree. -/
def kind : Stmt → String
  | assign _ _ _ => "Assignment"
  | dimension _ _ _ => "ArrayDecl"
  | assignElement _ _ _ _ => "ArrayAssign"
  | print _ _ => "Print"
  | read _ _ => "Read"
  | branch _ _ _ _ => "If"
  | select _ _ _ _ => "Switch"
  | whileLoop _ _ _ => "While"
  | repeatLoop _ _ _ => "Repeat"
  | forLoop _ _ _ _ _ _ => "For"

/-- The parts of a statement in a node tree. -/
def entries : Stmt → List (String × Node)
  | assign _ n e => [("name", .string n), ("value", e.toYaml)]
  | dimension _ n e => [("name", .string n), ("size", e.toYaml)]
  | assignElement _ n i e => [("name", .string n), ("index", i.toYaml), ("value", e.toYaml)]
  | print _ es => [("exprs", .sequence (exprsToYaml es))]
  | read _ ts => [("targets", .sequence (ts.map Target.toYaml))]
  | branch _ c yes no =>
    ("cond", c.toYaml) :: ("then", .sequence (blockToYaml yes)) :: elseToYaml no
  | select _ e cases other =>
    [("subject", e.toYaml), ("cases", .sequence (casesToYaml cases)),
      ("default", .sequence (blockToYaml other))]
  | whileLoop _ c b => [("cond", c.toYaml), ("body", .sequence (blockToYaml b))]
  | repeatLoop _ b c => [("body", .sequence (blockToYaml b)), ("until", c.toYaml)]
  | forLoop _ v first last step b =>
    [("var", .string v), ("from", .bare first.text), ("to", .bare last.text),
      ("step", .bare step.text), ("body", .sequence (blockToYaml b))]

theorem toYaml_eq (s : Stmt) : s.toYaml = located s.kind s.loc s.entries := by
  cases s with
  | _ => rw [toYaml]; rfl

theorem entries_free (s : Stmt) : ∀ p ∈ s.entries, p.1 ≠ "at" := by
  cases s with
  | branch _ _ _ no =>
    cases no with
    | _ => simp [entries, elseToYaml]
  | _ => simp [entries]

theorem toYaml_inj {s s' : Stmt} (same : s.toYaml = s'.toYaml) :
    s.kind = s'.kind ∧ s.loc = s'.loc ∧ s.entries = s'.entries := by
  rw [toYaml_eq, toYaml_eq] at same
  exact located_inj s.entries_free s'.entries_free same

end Stmt

section Clear

/-- Statements with none but clear expressions in them. -/
def AreClear (ss : List Stmt) : Prop := ∀ s ∈ ss, ∀ a ∈ s.expressions, a.IsClear

theorem areClear_cons {s : Stmt} {ss : List Stmt} :
    AreClear (s :: ss) ↔ (∀ a ∈ s.expressions, a.IsClear) ∧ AreClear ss := List.forall_mem_cons

theorem areClear_append {ss ts : List Stmt} :
    AreClear (ss ++ ts) ↔ AreClear ss ∧ AreClear ts := List.forall_mem_append

variable {s : Stmt} {e e' : Expr} (own : ∀ a ∈ s.expressions, a.IsClear)
include own

theorem Stmt.clear_operand (operand : e ∈ s.operands) : ∀ a ∈ e.parts, a.IsClear :=
  fun a part => own a (mem_expressions operand part)

end Clear

-- The recursion is that of statements.
mutual

theorem Stmt.unsigned_eq_of_toYaml_eq (s s' : Stmt) (clear : AreClear s.parts)
    (clear' : AreClear s'.parts) (same : s.toYaml = s'.toYaml) : s.unsigned = s'.unsigned := by
  obtain ⟨kinds, places, entries⟩ := Stmt.toYaml_inj same
  rw [Stmt.parts.eq_def, areClear_cons] at clear clear'
  have operand {e e' : Expr} (mem : e ∈ s.operands) (mem' : e' ∈ s'.operands)
      (tree : e.toYaml = e'.toYaml) : e = e' :=
    e.eq_of_toYaml_eq e' (Stmt.clear_operand clear.1 mem) (Stmt.clear_operand clear'.1 mem') tree
  match s with
  | .assign l n e =>
    cases s' with
    | assign l' n' e' =>
      obtain rfl : l = l' := places
      simp only [Stmt.entries, List.cons.injEq, Prod.mk.injEq, string_inj] at entries
      rw [entries.1.2, operand (by simp [Stmt.operands]) (by simp [Stmt.operands]) entries.2.1.2]
    | _ => exact absurd kinds (by simp [Stmt.kind])
  | .dimension l n e =>
    cases s' with
    | dimension l' n' e' =>
      obtain rfl : l = l' := places
      simp only [Stmt.entries, List.cons.injEq, Prod.mk.injEq, string_inj] at entries
      rw [entries.1.2, operand (by simp [Stmt.operands]) (by simp [Stmt.operands]) entries.2.1.2]
    | _ => exact absurd kinds (by simp [Stmt.kind])
  | .assignElement l n i e =>
    cases s' with
    | assignElement l' n' i' e' =>
      obtain rfl : l = l' := places
      simp only [Stmt.entries, List.cons.injEq, Prod.mk.injEq, string_inj] at entries
      rw [entries.1.2, operand (by simp [Stmt.operands]) (by simp [Stmt.operands]) entries.2.1.2,
        operand (by simp [Stmt.operands]) (by simp [Stmt.operands]) entries.2.2.1.2]
    | _ => exact absurd kinds (by simp [Stmt.kind])
  | .print l es =>
    cases s' with
    | print l' es' =>
      obtain rfl : l = l' := places
      simp only [Stmt.entries, List.cons.injEq, Prod.mk.injEq, Node.sequence.injEq] at entries
      rw [eq_of_exprsToYaml_eq es es' clear.1 clear'.1 entries.1.2]
    | _ => exact absurd kinds (by simp [Stmt.kind])
  | .read l ts =>
    cases s' with
    | read l' ts' =>
      obtain rfl : l = l' := places
      simp only [Stmt.entries, List.cons.injEq, Prod.mk.injEq, Node.sequence.injEq] at entries
      rw [List.map_injective_iff.2 (fun _ _ => Target.eq_of_toYaml_eq) entries.1.2]
    | _ => exact absurd kinds (by simp [Stmt.kind])
  | .branch l cond yes no =>
    cases s' with
    | branch l' cond' yes' no' =>
      obtain rfl : l = l' := places
      simp only [Stmt.entries, List.cons.injEq, Prod.mk.injEq, Node.sequence.injEq] at entries
      obtain ⟨clearYes, clearNo⟩ := areClear_append.1 clear.2
      obtain ⟨clearYes', clearNo'⟩ := areClear_append.1 clear'.2
      rw [Stmt.unsigned, Stmt.unsigned,
        operand (by simp [Stmt.operands]) (by simp [Stmt.operands]) entries.1.2,
        unsignedBlock_eq_of_blockToYaml_eq yes yes' clearYes clearYes' entries.2.1.2,
        unsignedElse_eq_of_elseToYaml_eq no no' clearNo clearNo' entries.2.2]
    | _ => exact absurd kinds (by simp [Stmt.kind])
  | .select l subject cases otherwise =>
    cases s' with
    | select l' subject' cases' otherwise' =>
      obtain rfl : l = l' := places
      simp only [Stmt.entries, List.cons.injEq, Prod.mk.injEq, Node.sequence.injEq] at entries
      obtain ⟨clearCases, clearRest⟩ := areClear_append.1 clear.2
      obtain ⟨clearCases', clearRest'⟩ := areClear_append.1 clear'.2
      have labels := (List.forall_mem_append.1 clear.1).2
      have labels' := (List.forall_mem_append.1 clear'.1).2
      rw [Stmt.unsigned, Stmt.unsigned,
        operand (by simp [Stmt.operands]) (by simp [Stmt.operands]) entries.1.2,
        unsignedCases_eq_of_casesToYaml_eq cases cases' labels labels' clearCases clearCases'
          entries.2.1.2,
        unsignedBlock_eq_of_blockToYaml_eq otherwise otherwise' clearRest clearRest'
          entries.2.2.1.2]
    | _ => exact absurd kinds (by simp [Stmt.kind])
  | .whileLoop l cond body =>
    cases s' with
    | whileLoop l' cond' body' =>
      obtain rfl : l = l' := places
      simp only [Stmt.entries, List.cons.injEq, Prod.mk.injEq, Node.sequence.injEq] at entries
      rw [Stmt.unsigned, Stmt.unsigned,
        operand (by simp [Stmt.operands]) (by simp [Stmt.operands]) entries.1.2,
        unsignedBlock_eq_of_blockToYaml_eq body body' clear.2 clear'.2 entries.2.1.2]
    | _ => exact absurd kinds (by simp [Stmt.kind])
  | .repeatLoop l body cond =>
    cases s' with
    | repeatLoop l' body' cond' =>
      obtain rfl : l = l' := places
      simp only [Stmt.entries, List.cons.injEq, Prod.mk.injEq, Node.sequence.injEq] at entries
      rw [Stmt.unsigned, Stmt.unsigned,
        operand (by simp [Stmt.operands]) (by simp [Stmt.operands]) entries.2.1.2,
        unsignedBlock_eq_of_blockToYaml_eq body body' clear.2 clear'.2 entries.1.2]
    | _ => exact absurd kinds (by simp [Stmt.kind])
  | .forLoop l var first last step body =>
    cases s' with
    | forLoop l' var' first' last' step' body' =>
      obtain rfl : l = l' := places
      simp only [Stmt.entries, List.cons.injEq, Prod.mk.injEq, string_inj, bare_inj,
        Node.sequence.injEq] at entries
      rw [Stmt.unsigned, Stmt.unsigned, entries.1.2, Number.text_inj entries.2.1.2,
        Number.text_inj entries.2.2.1.2, Number.text_inj entries.2.2.2.1.2,
        unsignedBlock_eq_of_blockToYaml_eq body body' clear.2 clear'.2 entries.2.2.2.2.1.2]
    | _ => exact absurd kinds (by simp [Stmt.kind])
termination_by structural s

theorem unsignedBlock_eq_of_blockToYaml_eq (ss ss' : List Stmt) (clear : AreClear (partsOfBlock ss))
    (clear' : AreClear (partsOfBlock ss')) (same : blockToYaml ss = blockToYaml ss') :
    unsignedBlock ss = unsignedBlock ss' := by
  match ss with
  | [] =>
    cases ss' with
    | nil => rfl
    | cons s' rest' => cases same
  | s :: rest =>
    cases ss' with
    | nil => cases same
    | cons s' rest' =>
      obtain ⟨first, later⟩ := List.cons.inj same
      rw [partsOfBlock, areClear_append] at clear clear'
      rw [unsignedBlock, unsignedBlock,
        s.unsigned_eq_of_toYaml_eq s' clear.1 clear'.1 first,
        unsignedBlock_eq_of_blockToYaml_eq rest rest' clear.2 clear'.2 later]
termination_by structural ss

theorem unsignedElse_eq_of_elseToYaml_eq (no no' : Option (List Stmt))
    (clear : AreClear (partsOfElse no)) (clear' : AreClear (partsOfElse no'))
    (same : elseToYaml no = elseToYaml no') : unsignedElse no = unsignedElse no' := by
  match no with
  | none =>
    cases no' with
    | none => rfl
    | some body' => cases same
  | some body =>
    cases no' with
    | none => cases same
    | some body' =>
      simp only [elseToYaml, List.cons.injEq, Prod.mk.injEq, Node.sequence.injEq] at same
      rw [unsignedElse, unsignedElse,
        unsignedBlock_eq_of_blockToYaml_eq body body' clear clear' same.1.2]
termination_by structural no

theorem unsignedCases_eq_of_casesToYaml_eq (cs cs' : List (Expr × List Stmt))
    (labels : ∀ a ∈ partsOfAll (cs.map (·.1)), a.IsClear)
    (labels' : ∀ a ∈ partsOfAll (cs'.map (·.1)), a.IsClear) (clear : AreClear (partsOfCases cs))
    (clear' : AreClear (partsOfCases cs')) (same : casesToYaml cs = casesToYaml cs') :
    unsignedCases cs = unsignedCases cs' := by
  match cs with
  | [] =>
    cases cs' with
    | nil => rfl
    | cons c' rest' => cases same
  | (label, body) :: rest =>
    cases cs' with
    | nil => cases same
    | cons c' rest' =>
      obtain ⟨label', body'⟩ := c'
      obtain ⟨first, later⟩ := List.cons.inj same
      simp only [Node.mapping.injEq, List.cons.injEq, Prod.mk.injEq,
        Node.sequence.injEq] at first
      obtain ⟨own, others⟩ := List.forall_mem_append.1 labels
      obtain ⟨own', others'⟩ := List.forall_mem_append.1 labels'
      rw [partsOfCases, areClear_append] at clear clear'
      rw [unsignedCases, unsignedCases, label.eq_of_toYaml_eq label' own own' first.1.2,
        unsignedBlock_eq_of_blockToYaml_eq body body' clear.1 clear'.1 first.2.1.2,
        unsignedCases_eq_of_casesToYaml_eq rest rest' others others' clear.2 clear'.2 later]
termination_by structural cs

end

theorem isNegative_of_constant? {x : Text} {n : Number} (value : constant? x = some n) :
    n.isNegative = false := by
  rw [constant?] at value
  split at value
  · cases value
    decide +kernel
  · split at value
    · cases value
      decide +kernel
    · cases value

theorem yields_isClear {ts : List Token} (spelt : ∀ t ∈ ts, t.IsSpelt)
    (ordinary : ∀ t ∈ ts, Scanner.IsOrdinary t) : Yields Expr.IsClear ts where
  text _ _ := trivial
  boolean _ _ := trivial
  name _ _ _ := trivial
  element _ _ _ _ := trivial
  call _ _ _ _ := trivial
  negated _ _ := rfl
  operation _ _ mem inner := (ordinary _ mem inner.1).resolve_right inner.2
  number _ t n mem value := by
    rcases value with ⟨kind, read⟩ | constant
    · obtain ⟨digits, lexeme, same, form⟩ := spelt t mem
      rw [kind] at form
      rw [Number.ofText?, same, Text.chars_ofChars] at read
      cases form with
      | number nonempty digit => exact Number.isNegative_of_digits nonempty digit read
      | mark mark =>
        have kinds : ∀ m ∈ Token.marks, m.2 ≠ .number := by decide
        exact absurd rfl (kinds _ mark)
    · exact isNegative_of_constant? constant

namespace Program

variable {src src' : Text} {p q : Program}

/-- A program without the signs of zeros in the bounds and steps of its loops. -/
def unsigned (p : Program) : Program := ⟨p.name, unsignedBlock p.body⟩

/-- The expressions of a program of a source are clear. -/
theorem areClear_of_ofSource (compiled : ofSource src = .ok p) : AreClear p.statements := by
  obtain ⟨ts, scanned, derived⟩ := exists_derives_of_ofSource compiled
  have nodes := yields_isClear (scan_eq_ok_iff.1 scanned).isSpelt (isOrdinary_of_scan scanned)
  intro s mem a own
  exact derived.forall_expressions nodes a (List.mem_flatMap.2 ⟨s, mem, own⟩)

/-- **A node tree tells a whole program of a source**, but for the sign of a zero bound or step. -/
theorem toYaml_inj_of_ofSource (compiled : ofSource src = .ok p)
    (compiled' : ofSource src' = .ok q) (same : p.toYaml = q.toYaml) : p.unsigned = q.unsigned := by
  simp only [toYaml, Node.mapping.injEq, List.cons.injEq, Prod.mk.injEq, string_inj,
    Node.sequence.injEq] at same
  rw [unsigned, unsigned, same.2.1.2,
    unsignedBlock_eq_of_blockToYaml_eq p.body q.body (areClear_of_ofSource compiled)
      (areClear_of_ofSource compiled') same.2.2.1.2]

/-- A loop to 3, in the first line of a source. -/
def loopFrom (first : Number) : Program :=
  ⟨"p", [.forLoop (some ⟨1, 13⟩) "i" first (Number.ofNat 3) 1 []]⟩

/-- A loop from the negative zero has the tree of a loop from zero, and but for the sign it is
the same. -/
theorem toYaml_inj_of_ofSource_zero :
    ofSource "algoritmo p para i <- -0 hasta 3 hacer finpara finalgoritmo" =
        .ok (loopFrom (Number.ofMagnitude true 0)) ∧
      ofSource "algoritmo p para i <- 0 hasta 3 hacer finpara finalgoritmo" =
        .ok (loopFrom (Number.ofMagnitude false 0)) ∧
      (loopFrom (Number.ofMagnitude true 0)).unsigned =
        (loopFrom (Number.ofMagnitude false 0)).unsigned := by
  have below : ofSource "algoritmo p para i <- -0 hasta 3 hacer finpara finalgoritmo" =
      .ok (loopFrom (Number.ofMagnitude true 0)) := by rfl
  have above : ofSource "algoritmo p para i <- 0 hasta 3 hacer finpara finalgoritmo" =
      .ok (loopFrom (Number.ofMagnitude false 0)) := by rfl
  have texts : (Number.ofMagnitude true 0).text = (Number.ofMagnitude false 0).text := by
    decide +kernel
  have trees : (loopFrom (Number.ofMagnitude true 0)).toYaml =
      (loopFrom (Number.ofMagnitude false 0)).toYaml := by
    simp only [loopFrom, toYaml, blockToYaml, Stmt.toYaml, texts]
  exact ⟨below, above, toYaml_inj_of_ofSource below above trees⟩

end Program

end Pseudocode

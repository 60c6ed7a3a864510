import Pseudocode.Proofs.Llvm.Counters
import Pseudocode.Proofs.Llvm.Subset
import Pseudocode.Proofs.Program.Fitness
import Pseudocode.Proofs.Run.Effects
import Pseudocode.Proofs.Run.Walk

/-!
# Runs of what has a module

The interpreter knows more kinds of value than the numeric subset has. A program from a source that
has a module never meets them: its variables hold numbers and truth values, it has no arrays, it
neither asks for input nor draws random numbers, and what can go wrong is little. A truth value may
stand where a number is needed, a divisor may be zero, and a variable may be read that is bound
further up in the text, but not on the way that the run took.

That is an invariant of the run. Every effect of a statement keeps it, since expressions that are
arithmetic all through have values of these kinds where the variables have.
-/

namespace Pseudocode

namespace Action

variable {σ ε α β : Type} {P : α → Prop} {Q : β → Prop} {E : ε → Prop}

/-- An action leaves any state as it is, and its value has one property or its error another. -/
def Settles (P : α → Prop) (E : ε → Prop) (x : Action σ ε α) : Prop :=
  ∀ s, (∃ a, x s = (.ok a, s) ∧ P a) ∨ ∃ e, x s = (.error e, s) ∧ E e

theorem settles_pure {a : α} (h : P a) : Settles P E (pure a : Action σ ε α) :=
  fun _ => .inl ⟨a, rfl, h⟩

theorem settles_fail {e : ε} (h : E e) : Settles P E (fail e : Action σ ε α) :=
  fun _ => .inr ⟨e, rfl, h⟩

theorem Settles.bind {x : Action σ ε α} {f : α → Action σ ε β} (first : Settles P E x)
    (rest : ∀ a, P a → Settles Q E (f a)) : Settles Q E (x >>= f) := by
  intro s
  rcases first s with ⟨a, ran, holds⟩ | ⟨e, failed, holds⟩
  · rw [bind_of_ok ran]
    exact rest a holds s
  · exact .inr ⟨e, bind_of_error failed, holds⟩

end Action

open Pseudocode.Action (Settles settles_pure settles_fail)

/-- The kinds of value that have a number in a module. -/
def Value.Kind.IsNumeric (k : Kind) : Prop := k = .number ∨ k = .boolean

/-- A number or a truth value. -/
def Value.IsNumeric (v : Value) : Prop := v.kind.IsNumeric

theorem Value.IsNumeric.cases {v : Value} (h : v.IsNumeric) :
    (∃ n, v = .number n) ∨ ∃ b, v = .boolean b := by
  cases v with
  | number n => exact .inl ⟨n, rfl⟩
  | boolean b => exact .inr ⟨b, rfl⟩
  | _ =>
    rcases h with h | h
    · cases h
    · cases h

/-- What can go wrong with numbers and truth values, other than that a variable is not bound: the
divisor is zero, a truth value stands where a number is needed, or the host stops the run. -/
def Fault.IsNumeric : Fault → Prop
  | divisionByZero | stepLimit _ | interrupted _ | outputFailed _ => True
  | unaryOperand _ kind | call (.numberNeeded _ kind) => kind = .boolean
  | binaryOperands _ lhs rhs | incomparable _ lhs rhs =>
    lhs.IsNumeric ∧ rhs.IsNumeric ∧ (lhs = .boolean ∨ rhs = .boolean)
  | _ => False

/-- Such a fault, or a variable that is not bound where one of some places reads it. -/
def RuntimeError.IsNumeric (reads : Option Location → Text → Prop) (e : RuntimeError) : Prop :=
  match e.fault with
  | .undefinedVariable x => reads e.loc x
  | f => f.IsNumeric

variable {reads : Option Location → Text → Prop}

theorem RuntimeError.IsNumeric.of_fault {loc : Option Location} {f : Fault} (h : f.IsNumeric) :
    (⟨loc, f⟩ : RuntimeError).IsNumeric reads := by
  cases f with
  | undefinedVariable => exact h.elim
  | _ => exact h

/-- The variables hold numbers and truth values, and there are no arrays. -/
structure Store.IsNumeric (s : Store) : Prop where
  values : ∀ x v, s.bindings.find? x = some v → v.IsNumeric
  arrays : s.arrays = .empty

theorem Store.isNumeric_empty : empty.IsNumeric := by
  refine ⟨fun x v found => ?_, rfl⟩
  cases found

namespace Eval

variable {loc : Option Location} {store : Store}

/-- A numeric value, or a fault that such values can have. -/
def NumericResult : Except Fault Value → Prop
  | .ok v => v.IsNumeric
  | .error f => f.IsNumeric

theorem numericResult_binary {arrays : Arrays} {op : BinaryOp} (known : op ∈ BinaryOp.known)
    {lhs rhs : Value} (left : lhs.IsNumeric) (right : rhs.IsNumeric) :
    NumericResult (binary arrays op lhs rhs) := by
  have number (n : Number) : NumericResult (.ok (.number n)) := .inl rfl
  have boolean (b : Bool) : NumericResult (.ok (.boolean b)) := .inr rfl
  have mismatch (f : Fault) (h : f.IsNumeric) : NumericResult (.error f) := h
  obtain ⟨a, rfl⟩ | ⟨a, rfl⟩ := left.cases
  · obtain ⟨b, rfl⟩ | ⟨b, rfl⟩ := right.cases
    · cases op with
      | other => simp [BinaryOp.known] at known
      | div =>
        rw [binary]
        split
        · exact trivial
        · exact number _
      | add | sub | mul => exact number _
      | _ => exact boolean _
    · have kinds : Fault.IsNumeric (.binaryOperands op .number .boolean) :=
        ⟨.inl rfl, .inr rfl, .inr rfl⟩
      cases op with
      | other => simp [BinaryOp.known] at known
      | eq | ne | and | or => exact boolean _
      | _ => exact kinds
  · have kinds (k : Value.Kind) (h : k.IsNumeric) :
        Fault.IsNumeric (.binaryOperands op .boolean k) := ⟨.inr rfl, h, .inl rfl⟩
    cases op with
    | other => simp [BinaryOp.known] at known
    | eq | ne | and | or => exact boolean _
    | _ =>
      obtain ⟨b, rfl⟩ | ⟨b, rfl⟩ := right.cases
      · exact kinds .number (.inl rfl)
      · exact kinds .boolean (.inr rfl)

theorem numericResult_negate {v : Value} (h : v.IsNumeric) : NumericResult (unary .negate v) := by
  obtain ⟨n, rfl⟩ | ⟨b, rfl⟩ := h.cases
  · exact .inl rfl
  · exact rfl

theorem settles_located {r : Except Fault Value} (h : NumericResult r) :
    Settles Value.IsNumeric (RuntimeError.IsNumeric reads) (located loc r) := by
  intro n
  cases r with
  | ok v => exact .inl ⟨v, rfl, h⟩
  | error f => exact .inr ⟨⟨loc, f⟩, rfl, .of_fault h⟩

theorem settles_call (draws : Nat → Number) (f : MathFunction) {v : Value} (h : v.IsNumeric) :
    Settles Value.IsNumeric (RuntimeError.IsNumeric reads)
      (call draws store loc (.math f) [v]) := by
  intro n
  obtain ⟨x, rfl⟩ | ⟨b, rfl⟩ := h.cases
  · exact .inl ⟨.number (f.apply x), rfl, .inl rfl⟩
  · exact .inr ⟨⟨loc, .call (.numberNeeded (.math f) .boolean)⟩, rfl, rfl⟩

end Eval

theorem Store.IsNumeric.get? {store : Store} (h : store.IsNumeric) {x : Text} {v : Value}
    (found : store.get? x = some v) : v.IsNumeric := by
  rw [Store.get?] at found
  split at found
  · cases found
    exact .inl rfl
  · exact h.values x v found

/-- Arithmetic over numbers and truth values gives one of them, or fails in one of few ways. -/
theorem Expr.settles_eval (draws : Nat → Number) {store : Store} (holds : store.IsNumeric)
    (e : Expr) (fit : ∀ a ∈ e.parts, a.IsArithmetic ∧ a.IsGrammatical)
    (within : ∀ loc x, .read loc x ∈ e.mentions → reads loc x) :
    Settles Value.IsNumeric (RuntimeError.IsNumeric reads) (e.eval draws store) := by
  rw [Expr.parts.eq_def] at fit
  obtain ⟨⟨own, grammatical⟩, inner⟩ := List.forall_mem_cons.1 fit
  cases e with
  | number =>
    rw [Expr.eval]
    exact settles_pure (.inl rfl)
  | boolean =>
    rw [Expr.eval]
    exact settles_pure (.inr rfl)
  | name loc x =>
    rw [Expr.eval]
    split
    · next v found => exact settles_pure (holds.get? found)
    · exact settles_fail (within loc x (List.mem_singleton_self _))
  | unary _ op a =>
    cases grammatical
    rw [Expr.eval]
    refine (a.settles_eval draws holds inner within).bind fun v numeric => ?_
    exact Eval.settles_located (Eval.numericResult_negate numeric)
  | binary _ op a b =>
    obtain ⟨inLeft, inRight⟩ := List.forall_mem_append.1 inner
    rw [Expr.eval]
    refine (a.settles_eval draws holds inLeft fun loc x mem => ?_).bind fun lhs left => ?_
    · exact within loc x (List.mem_append_left _ mem)
    refine (b.settles_eval draws holds inRight fun loc x mem => ?_).bind fun rhs right => ?_
    · exact within loc x (List.mem_append_right _ mem)
    exact Eval.settles_located (Eval.numericResult_binary own left right)
  | call loc function args =>
    obtain ⟨arg, rfl⟩ := List.length_eq_one_iff.1 own.2
    obtain ⟨f, found⟩ := Option.isSome_iff_exists.1 own.1
    rw [Expr.eval, math_ofName? found]
    have argument : Settles Value.IsNumeric (RuntimeError.IsNumeric reads)
        (arg.eval draws store) := by
      refine arg.settles_eval draws holds (fun a part => inner a ?_) fun loc x mem =>
        within loc x ?_
      · exact List.mem_append_left _ part
      · exact List.mem_append_left _ mem
    have arguments : Settles (fun vs => ∃ v, vs = [v] ∧ v.IsNumeric) (RuntimeError.IsNumeric reads)
        (evalAll draws store [arg]) := by
      rw [evalAll, evalAll]
      exact argument.bind fun v numeric => settles_pure ⟨v, rfl, numeric⟩
    refine arguments.bind fun vs given => ?_
    obtain ⟨v, rfl, numeric⟩ := given
    exact Eval.settles_call draws f numeric
  | text | element => exact own.elim

/-- An expression that a numeric program may print, and what it reads. -/
structure Expr.IsReady (reads : Option Location → Text → Prop) (e : Expr) : Prop where
  printable : e.IsPrintable
  grammatical : ∀ a ∈ e.parts, a.IsGrammatical
  within : ∀ loc x, .read loc x ∈ e.mentions → reads loc x

theorem Expr.IsReady.settles_eval (draws : Nat → Number) {store : Store} (holds : store.IsNumeric)
    {e : Expr} (ready : e.IsReady reads) :
    Settles (fun _ => True) (RuntimeError.IsNumeric reads) (e.eval draws store) := by
  have computed (arithmetic : ∀ a ∈ e.parts, a.IsArithmetic) :
      Settles (fun _ => True) (RuntimeError.IsNumeric reads) (e.eval draws store) := by
    intro n
    have fit := fun a mem => And.intro (arithmetic a mem) (ready.grammatical a mem)
    rcases Expr.settles_eval draws holds e fit ready.within n with ⟨v, ran, _⟩ | failed
    · exact .inl ⟨v, ran, trivial⟩
    · exact .inr failed
  cases e with
  | text _ t =>
    rw [Expr.eval]
    exact settles_pure trivial
  | _ => exact computed ready.printable

theorem settles_evalAll (draws : Nat → Number) {store : Store} (holds : store.IsNumeric)
    {es : List Expr} (ready : ∀ e ∈ es, e.IsReady reads) :
    Settles (fun _ => True) (RuntimeError.IsNumeric reads) (evalAll draws store es) := by
  induction es with
  | nil =>
    rw [evalAll]
    exact settles_pure trivial
  | cons e rest ih =>
    obtain ⟨first, others⟩ := List.forall_mem_cons.1 ready
    rw [evalAll]
    refine (first.settles_eval draws holds).bind fun v _ => ?_
    exact (ih others).bind fun vs _ => settles_pure trivial

/-- A state of a numeric run that started with some channels: nothing was read or drawn since, and
nothing but lines is in the log. -/
structure Machine.IsNumeric (channels : Channels) (m : Machine) : Prop where
  store : m.store.IsNumeric
  log : ∀ event ∈ m.log, ∃ line, event = .line line
  input : m.channels.input = channels.input
  reads : m.channels.reads = channels.reads
  drawn : m.channels.drawn = channels.drawn

namespace Run

variable {α : Type} {host : Host} {loc : Option Location} {channels : Channels} {m m' : Machine}

theorem evaluating_of_settles {P : α → Prop} {E : RuntimeError → Prop} {x : Store → Eval α}
    (h : Settles P E (x m.store)) :
    (∃ a, evaluating x m = (.ok a, m) ∧ P a) ∨
      ∃ e, evaluating x m = (.error (.failed e), m) ∧ E e := by
  rcases h m.channels.drawn with ⟨a, ran, holds⟩ | ⟨e, failed, holds⟩
  · refine .inl ⟨a, ?_, holds⟩
    simp only [evaluating, ran]
  · refine .inr ⟨e, ?_, holds⟩
    simp only [evaluating, failed]

end Run

/-- An effect that fails does so in a way that numeric programs may. -/
def Occurrence.FailsNumerically (reads : Option Location → Text → Prop) (o : Occurrence) : Prop :=
  ∀ e, o.answer = .error (.failed e) → e.IsNumeric reads

namespace Occurrence

variable {α : Type} {effect : Effect α} {m : Machine}

theorem failsNumerically_of_ok (a : α) : FailsNumerically reads ⟨effect, .ok a, m⟩ := by
  intro e failed
  cases failed

theorem failsNumerically_of_error {e : RuntimeError} (h : e.IsNumeric reads) :
    FailsNumerically reads ⟨effect, .error (.failed e), m⟩ := by
  intro e' failed
  cases failed
  exact h

end Occurrence

open Occurrence (failsNumerically_of_ok failsNumerically_of_error)

namespace Effect

variable {α : Type} {host : Host} {channels : Channels} {m m' : Machine} {effect : Effect α}

/-- After an effect the state is still numeric, and its failure is one that is allowed. -/
def KeepsNumeric (host : Host) (channels : Channels) (reads : Option Location → Text → Prop)
    (m : Machine) (effect : Effect α) : Prop :=
  ∀ r m', effect.perform host m = (r, m') →
    m'.IsNumeric channels ∧ Occurrence.FailsNumerically reads ⟨effect, r, m'⟩

theorem KeepsNumeric.of_evaluating (effect : Effect α) {P : α → Prop} {x : Store → Eval α}
    (performs : effect.perform host = Run.evaluating x) (holds : m.IsNumeric channels)
    (h : Settles P (RuntimeError.IsNumeric reads) (x m.store)) :
    effect.KeepsNumeric host channels reads m ∧
      ∀ a m', effect.perform host m = (.ok a, m') → m' = m ∧ P a := by
  rw [KeepsNumeric, performs]
  rcases Run.evaluating_of_settles h with ⟨a, ran, given⟩ | ⟨e, failed, allowed⟩
  · rw [ran]
    constructor
    · intro r m' same
      cases same
      exact ⟨holds, failsNumerically_of_ok a⟩
    · intro b m' same
      cases same
      exact ⟨rfl, given⟩
  · rw [failed]
    constructor
    · intro r m' same
      cases same
      exact ⟨holds, failsNumerically_of_error allowed⟩
    · intro b m' same
      cases same

theorem keepsNumeric_checkpoint {loc : Option Location} (holds : m.IsNumeric channels) :
    (checkpoint loc).KeepsNumeric host channels reads m := by
  intro r m' ran
  simp only [perform, Run.checkpoint] at ran
  split at ran
  · cases ran
    refine ⟨holds, fun e same => ?_⟩
    cases same
    exact trivial
  · split at ran
    · cases ran
      refine ⟨{ holds with }, fun e same => ?_⟩
      cases same
      exact trivial
    · cases ran
      exact ⟨{ holds with }, failsNumerically_of_ok ()⟩

theorem keepsNumeric_bindVariable {loc : Option Location} {name : Text} {v : Value}
    (notConstant : constant? name = none) (numeric : v.IsNumeric) (holds : m.IsNumeric channels) :
    (bindVariable loc name v).KeepsNumeric host channels reads m := by
  intro r m' ran
  simp only [perform, Run.bindVariable, Store.set?, notConstant] at ran
  cases ran
  refine ⟨{ holds with store := ⟨fun x w found => ?_, holds.store.arrays⟩ },
    failsNumerically_of_ok ()⟩
  rw [Variables.find?_insert] at found
  split at found
  · cases found
    exact numeric
  · exact holds.store.values x w found

theorem keepsNumeric_writeLine {loc : Option Location} {line : Text}
    (holds : m.IsNumeric channels) :
    (writeLine loc line).KeepsNumeric host channels reads m := by
  intro r m' ran
  simp only [perform, Run.writeLine] at ran
  split at ran
  · cases ran
    exact ⟨{ holds with }, failsNumerically_of_error trivial⟩
  · cases ran
    refine ⟨{ holds with log := fun event mem => ?_ }, failsNumerically_of_ok ()⟩
    rcases Array.mem_push.1 mem with before | rfl
    · exact holds.log event before
    · exact ⟨line, rfl⟩

end Effect

/-- A statement of a numeric program from a source, and what it reads itself. -/
structure Stmt.IsReady (reads : Option Location → Text → Prop) (s : Stmt) : Prop where
  numeric : s.IsNumeric
  grammatical : ∀ e ∈ s.expressions, e.IsGrammatical
  names : ∀ x ∈ s.assigned, constant? x = none
  within : ∀ loc x, .read loc x ∈ mentionsOfAll s.operands → reads loc x

theorem Stmt.IsReady.operand {s : Stmt} (ready : s.IsReady reads) {e : Expr}
    (mem : e ∈ s.operands) : e.IsReady reads := by
  have among : ∀ a ∈ e.parts, a ∈ s.expressions := fun a part => mem_expressions mem part
  refine ⟨?_, fun a part => ready.grammatical a (among a part), fun loc x read => ?_⟩
  · have computed (arithmetic : ∀ a ∈ s.expressions, a.IsArithmetic) : e.IsPrintable := by
      cases e with
      | text => trivial
      | _ => exact fun a part => arithmetic a (among a part)
    cases s with
    | print => exact ready.numeric e mem
    | dimension | assignElement | read => exact ready.numeric.elim
    | _ => exact computed ready.numeric
  · exact ready.within loc x (mentions_subset_of_mem mem read)

open Effect (KeepsNumeric keepsNumeric_checkpoint keepsNumeric_bindVariable keepsNumeric_writeLine)

/-- Every statement of a numeric program keeps the state numeric. -/
theorem closed_numeric (host : Host) (channels : Channels)
    (reads : Option Location → Text → Prop) :
    Script.Closed (Stmt.IsReady reads)
      (Script.Upholds host (Machine.IsNumeric channels) (Occurrence.FailsNumerically reads)) where
  pure := .pure
  exhausted := .exhausted
  bind := .bind
  checkpoint _ _ holds := .perform (keepsNumeric_checkpoint holds)
  value {_ e} ready mem m holds :=
    .perform (KeepsNumeric.of_evaluating (.value e) (x := fun store => e.eval host.draws store) rfl
      holds ((ready.operand mem).settles_eval host.draws holds.store)).1
  assign {loc name e} ready m holds := by
    have fit (a : Expr) (part : a ∈ e.parts) : a ∈ (Stmt.assign loc name e).expressions := by
      rwa [Stmt.expressions, Stmt.operands, partsOfAll, partsOfAll, List.append_nil]
    have value : Settles Value.IsNumeric (RuntimeError.IsNumeric reads)
        (e.eval host.draws m.store) :=
      e.settles_eval host.draws holds.store
        (fun a part => ⟨ready.numeric a (fit a part), ready.grammatical a (fit a part)⟩)
        (ready.operand (List.mem_singleton_self e)).within
    obtain ⟨keeps, given⟩ := KeepsNumeric.of_evaluating (.value e)
      (x := fun store => e.eval host.draws store) rfl holds value
    refine .act keeps fun v m' ran => ?_
    obtain ⟨rfl, numeric⟩ := given v m' ran
    exact .perform (keepsNumeric_bindVariable
      (ready.names name (List.mem_singleton_self _)) numeric holds)
  dimension ready := ready.numeric.elim
  assignElement ready := ready.numeric.elim
  print {loc exprs} ready m holds := by
    have line : Settles (fun _ => True) (RuntimeError.IsNumeric reads)
        (Run.printedLine host exprs m.store) :=
      (settles_evalAll host.draws holds.store fun e mem => ready.operand mem).bind fun _ _ =>
        settles_pure trivial
    obtain ⟨keeps, given⟩ := KeepsNumeric.of_evaluating (.printedLine exprs) rfl holds line
    refine .act keeps fun text m' ran => ?_
    obtain ⟨rfl, _⟩ := given text m' ran
    exact .perform (keepsNumeric_writeLine holds)
  read ready := ready.numeric.elim
  count {loc var first last step body} ready counter m holds :=
    .perform (keepsNumeric_bindVariable
      (ready.names var (List.mem_singleton_self _)) (.inl rfl) holds)

namespace Program

open Llvm

variable {src : Text} {p : Program}

/-- A place in the text that reads a variable, behind one that binds it. -/
def ReadsBound (p : Program) (loc : Option Location) (x : Text) : Prop :=
  ∃ before after, p.mentions = before ++ .read loc x :: after ∧ .bind x ∈ before

/-- The statements of a program that has a module are ready to be run as a numeric program. -/
theorem isReady_of_lower (compiled : ofSource src = .ok p) {m : Llvm.Module}
    (lowered : p.lower = .ok m) : ∀ s ∈ p.statements, s.IsReady p.ReadsBound := by
  obtain ⟨F, body, -⟩ := lower_eq_ok lowered
  have met : meetAll? [] p.mentions = some F.slots := Lowering.Meets.block p.body _ _ _ body
  intro s hs
  refine ⟨Lowering.Requires.block p.body _ _ _ body s hs, fun e he => ?_,
    constant?_assigned_of_ofSource compiled s hs, fun loc x read => ?_⟩
  · exact isGrammatical_of_ofSource compiled e (List.mem_flatMap_of_mem hs he)
  · obtain ⟨before, after, split⟩ := List.append_of_mem (mentions_partsOfBlock p.body s hs read)
    refine ⟨before, after, split, ?_⟩
    rw [mentions, split] at met
    exact (bound_of_meetAll? met).resolve_left List.not_mem_nil

/-- A program from a source that has a module is numeric in all of its runs. In every state its
variables hold numbers and truth values, it has no arrays, no input was asked for or taken, and no
random number was drawn. An effect that fails, and so the run itself, does it at a variable that is
not bound although the text in front binds it, at a division by zero, at a truth value where a
number is needed, or because of the host. -/
theorem isNumeric_of_lower (compiled : ofSource src = .ok p) {m : Llvm.Module}
    (lowered : p.lower = .ok m) (turns : Nat) (host : Host) (channels : Channels) :
    (∀ past state, p.Reaches turns host channels past state → state.IsNumeric channels) ∧
      (∀ o ∈ p.history turns host channels, o.FailsNumerically p.ReadsBound) ∧
      ∀ e, (p.runFor turns host channels).1.error? = some e → e.IsNumeric p.ReadsBound := by
  have start : Machine.IsNumeric channels ⟨.empty, 0, #[], channels⟩ :=
    ⟨Store.isNumeric_empty, fun _ none => (Array.not_mem_empty _ none).elim, rfl, rfl, rfl⟩
  have upholds := (closed_numeric host channels p.ReadsBound).block turns p.body
    (isReady_of_lower compiled lowered)
  obtain ⟨states, fails⟩ := of_upholds upholds start
  refine ⟨states, fails, fun e failed => ?_⟩
  obtain ⟨o, mem, answer⟩ := exists_failed_of_error? failed
  exact fails o mem e answer

/-- A variable that only the branch not taken binds. -/
def skipped : Text :=
  "algoritmo p
  si falso entonces
    y <- 1
  finsi
  escribir y
finalgoritmo"

theorem isNumeric_of_lower_skipped :
    ∃ p m e, ofSource skipped = .ok p ∧ p.lower = .ok m ∧
      (p.runFor 1 {} (.initial {} (.lines []))).1.error? = some e ∧
      e.fault = .undefinedVariable "y" ∧ p.ReadsBound e.loc "y" ∧
      ∀ past state, p.Reaches 1 {} (.initial {} (.lines [])) past state →
        state.IsNumeric (.initial {} (.lines [])) := by
  obtain ⟨p, F, compiled, body, failing⟩ :
      ∃ p F, ofSource skipped = .ok p ∧ lowerBlock p.body .initial = (.ok (), F) ∧
        (p.runFor 1 {} (.initial {} (.lines []))).1.error?.map RuntimeError.fault =
          some (.undefinedVariable "y") :=
    exists_draft (by decide +kernel)
  obtain ⟨e, failed, fault⟩ := Option.map_eq_some_iff.1 failing
  have lowered := lower_of_lowerBlock body
  obtain ⟨states, _, fails⟩ := isNumeric_of_lower compiled lowered 1 {} (.initial {} (.lines []))
  have allowed := fails e failed
  rw [RuntimeError.IsNumeric, fault] at allowed
  exact ⟨p, _, e, compiled, lowered, failed, fault, allowed, states⟩

end Program

end Pseudocode

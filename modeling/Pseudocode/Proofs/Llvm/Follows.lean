import Pseudocode.Proofs.Llvm.Statements
import Pseudocode.Proofs.Run.Congruence
import Pseudocode.Proofs.Run.Effects

/-!
# Code that follows a run

While a program and its code run side by side, every variable has its value in its slot, and the
calls of the printing routine are those for the values that were shown. Variables that a loop has
counted with are left out, because the code counts in their slots. That code follows a run in this
way is put together from what a run is made of: one rule for each, among them one for loops, where
the execution goes back to the block in which the loop begins.

Booleans and numbers are told apart by the language only, so all of this needs that no values of two
kinds were compared for equality.
-/

namespace Pseudocode

open Llvm Draft

namespace Observation

/-- The values that were compared. -/
def comparison? : Observation → Option (Value × Value)
  | compared a b => some (a, b)
  | shown _ => none

/-- The calls of the printing routine for the values that were shown: one for each value and one for
the end of the line. -/
def outputs? : Observation → Option (List Output)
  | compared _ _ => some []
  | shown values => (values.mapM Value.output?).map fun os => os ++ [.newline]

/-- The line that the values make that were shown. -/
def line? : Observation → Option Text
  | compared _ _ => none
  | shown values => some (Text.concat (values.map (Value.toText .empty)))

end Observation

namespace Trace

/-- The values that were compared. -/
def comparisons (trace : List Observation) : List (Value × Value) :=
  trace.filterMap Observation.comparison?

/-- The calls of the printing routine for all values that were shown. -/
def outputs? (trace : List Observation) : Option (List Output) :=
  (trace.mapM Observation.outputs?).map List.flatten

/-- The lines that the values make that were shown. -/
def lines (trace : List Observation) : List Text := trace.filterMap Observation.line?

@[simp] theorem comparisons_append (first rest : List Observation) :
    comparisons (first ++ rest) = comparisons first ++ comparisons rest :=
  List.filterMap_append

@[simp] theorem lines_append (first rest : List Observation) :
    lines (first ++ rest) = lines first ++ lines rest :=
  List.filterMap_append

theorem outputs?_append {first rest : List Observation} {os os' : List Output}
    (h : outputs? first = some os) (h' : outputs? rest = some os') :
    outputs? (first ++ rest) = some (os ++ os') := by
  obtain ⟨xs, hxs, rfl⟩ := Option.map_eq_some_iff.1 h
  obtain ⟨ys, hys, rfl⟩ := Option.map_eq_some_iff.1 h'
  simp [outputs?, List.mapM_append, hxs, hys]

section Compared

variable (pairs : List (Value × Value))

/-- The trace of an evaluation shows its comparisons. -/
theorem comparisons_map :
    comparisons (pairs.map fun (a, b) => .compared a b) = pairs := by
  induction pairs with
  | nil => rfl
  | cons p rest ih =>
    simp only [comparisons, List.map_cons, List.filterMap_cons, Observation.comparison?] at ih ⊢
    rw [ih]

theorem outputs?_map : outputs? (pairs.map fun (a, b) => .compared a b) = some [] := by
  induction pairs with
  | nil => rfl
  | cons p rest ih =>
    have first : outputs? [.compared p.1 p.2] = some [] := rfl
    exact outputs?_append first ih

theorem lines_map : lines (pairs.map fun (a, b) => .compared a b) = [] := by
  induction pairs with
  | nil => rfl
  | cons p rest ih => exact ih

end Compared

end Trace

/-- The frame is where the machine is after what was observed: it has the variables but for stale
ones, room for those that are still to come, and has printed what was shown. -/
structure Tracks (F : Draft) (m : Machine) (f : Frame) (trace : List Observation)
    (stale : List Text := []) : Prop where
  holds : f.Holds m.store stale
  allocated : ∀ x ∈ F.slots, (f.slots x).isSome
  printed : Trace.outputs? trace = some f.printed
  written : m.log.toList.filterMap Event.line? = Trace.lines trace

namespace Tracks

variable {F : Draft} {m m' : Machine} {f f' : Frame} {t : List Observation} {stale : List Text}

/-- More may be stale. -/
theorem mono {stale' : List Text} (h : Tracks F m f t stale) (more : stale ⊆ stale') :
    Tracks F m f t stale' :=
  { h with holds := fun name v current => h.holds name v fun mem => current (more mem) }

/-- Nothing that matters was changed. -/
theorem of_same (h : Tracks F m f t stale) (store : m'.store = m.store) (log : m'.log = m.log)
    (slots : f'.slots = f.slots) (printed : f'.printed = f.printed) : Tracks F m' f' t stale where
  holds := by
    rw [store]
    exact h.holds.of_slots slots
  allocated := by
    rw [slots]
    exact h.allocated
  printed := by
    rw [printed]
    exact h.printed
  written := by
    rw [log]
    exact h.written

/-- An evaluation observes nothing but comparisons. -/
theorem compared (h : Tracks F m f t stale) (pairs : List (Value × Value)) :
    Tracks F m f (t ++ pairs.map fun (a, b) => .compared a b) stale where
  holds := h.holds
  allocated := h.allocated
  printed := by simpa using Trace.outputs?_append h.printed (Trace.outputs?_map pairs)
  written := by
    rw [Trace.lines_append, Trace.lines_map, List.append_nil]
    exact h.written

/-- Any slot may be set. -/
theorem allocated_setSlot (h : Tracks F m f t stale) (name : Text) (x : Number) :
    ∀ y ∈ F.slots, ((f.setSlot name (some x)).slots y).isSome := by
  intro y hy
  by_cases same : y = name
  · simp [Frame.setSlot, same]
  · simpa [Frame.setSlot, same] using h.allocated y hy

/-- A variable was bound and its slot set, so that it is not stale. -/
theorem assigned (h : Tracks F m f t stale) (name : Text) {v : Value} {x : Number}
    (hx : v.erased? = some x) :
    Tracks F { m with store.bindings := m.store.bindings.insert name v }
      (f.setSlot name (some x)) t (stale.filter (· ≠ name)) where
  holds := by
    intro y w current bound
    rw [Variables.find?_insert] at bound
    by_cases same : y = name
    · rw [if_pos same] at bound
      cases bound
      exact ⟨x, hx, if_pos same⟩
    · rw [if_neg same] at bound
      have before : y ∉ stale := fun mem => current (List.mem_filter.2 ⟨mem, by simpa using same⟩)
      obtain ⟨z, hz, slot⟩ := h.holds y w before bound
      exact ⟨z, hz, (if_neg same).trans slot⟩
  allocated := h.allocated_setSlot name x
  printed := h.printed
  written := h.written

/-- A variable was bound to what its slot has, so that it is not stale. -/
theorem bound (h : Tracks F m f t stale) {name : Text} {v : Value} {x : Number}
    (hx : v.erased? = some x) (slot : f.slots name = some (some x)) :
    Tracks F { m with store.bindings := m.store.bindings.insert name v } f t
      (stale.filter (· ≠ name)) := by
  have unchanged : (f.setSlot name (some x)).slots = f.slots := by
    funext y
    by_cases same : y = name
    · simp [Frame.setSlot, same, slot]
    · simp [Frame.setSlot, same]
  exact (h.assigned name hx).of_same rfl rfl unchanged.symm rfl

/-- The slot of a stale variable was set. -/
theorem counted (h : Tracks F m f t stale) {name : Text} (mem : name ∈ stale) (x : Number) :
    Tracks F m (f.setSlot name (some x)) t stale where
  holds := by
    intro y w current bound
    have other : y ≠ name := fun same => current (same ▸ mem)
    obtain ⟨z, hz, slot⟩ := h.holds y w current bound
    exact ⟨z, hz, (if_neg other).trans slot⟩
  allocated := h.allocated_setSlot name x
  printed := h.printed
  written := h.written

end Tracks

/-- A value that the code can print is the same text whatever arrays there are. -/
theorem Value.toText_of_output? {v : Value} {o : Output} (h : v.output? = some o)
    (arrays : Arrays) : v.toText arrays = v.toText .empty := by
  cases v with
  | number | text | boolean => simp [toText, textWithin]
  | uninitialized | array | foreign => cases h

theorem Value.texts_of_outputs {values : List Value} {os : List Output}
    (h : values.mapM Value.output? = some os) (arrays : Arrays) :
    values.map (Value.toText arrays) = values.map (Value.toText .empty) := by
  induction values generalizing os with
  | nil => rfl
  | cons v rest ih =>
    rw [List.mapM_cons] at h
    obtain ⟨o, ho, h⟩ := Option.bind_eq_some_iff.1 h
    obtain ⟨later, hlater, _⟩ := Option.bind_eq_some_iff.1 h
    rw [List.map_cons, List.map_cons, toText_of_output? ho arrays, ih hlater]

/-- Values were shown and printed. -/
theorem Tracks.shown {F : Draft} {m m' : Machine} {f f' : Frame} {t : List Observation}
    {stale : List Text} {values : List Value} {os : List Output} (h : Tracks F m f t stale)
    (hos : values.mapM Value.output? = some os) (store : m'.store = m.store)
    (log : m'.log = m.log.push (.line (Text.concat (values.map m.store.textOf))))
    (slots : f'.slots = f.slots) (printed : f'.printed = f.printed ++ (os ++ [.newline])) :
    Tracks F m' f' (t ++ [.shown values]) stale where
  holds := by
    rw [store]
    exact h.holds.of_slots slots
  allocated := by
    rw [slots]
    exact h.allocated
  printed := by
    have last : Trace.outputs? [.shown values] = some (os ++ [.newline]) := by
      simp [Trace.outputs?, Observation.outputs?, hos]
    rw [printed]
    exact Trace.outputs?_append h.printed last
  written := by
    have texts : values.map m.store.textOf = values.map (Value.toText .empty) :=
      Value.texts_of_outputs hos m.store.arrays
    rw [log, texts, Array.toList_push, List.filterMap_append, h.written, Trace.lines_append]
    rfl

namespace Tracks

variable {F : Draft} {m m' : Machine} {f f' : Frame} {t : List Observation} {stale : List Text}

/-- A checkpoint changes nothing that the code has to do with. -/
theorem checkpoint {host : Host} {loc : Option Location} (h : Tracks F m f t stale)
    (ran : Run.checkpoint host loc m = (.ok (), m')) : Tracks F m' f t stale := by
  cases Run.checkpoint_eq_ok ran
  exact h.of_same rfl rfl rfl rfl

/-- Nor does an evaluation, of which the comparisons are observed. -/
theorem evaluated {α : Type} {x : Store → Eval α} {a : α} (h : Tracks F m f t stale)
    (ran : Run.evaluating x m = (.ok a, m')) (compared : Store → Nat → List (Value × Value)) :
    Tracks F m' f (t ++ Run.evaluationTrace compared m) stale := by
  obtain ⟨drawn, _, rfl⟩ := Run.evaluating_eq_ok ran
  exact (h.compared _).of_same rfl rfl rfl rfl

end Tracks

/-- A point of the code: the end of a draft, the variables that are stale there, and what is known
of the frame. -/
structure Point where
  draft : Draft
  stale : List Text
  known : Frame → Prop

/-- Nothing is known of a frame. -/
def Any : Frame → Prop := fun _ => True

/-- An operand is the number for a value. -/
def Llvm.Frame.StandsFor (f : Frame) (v : Operand) (w : Value) : Prop :=
  ∃ x, w.erased? = some x ∧ f.double? v = some x

theorem Llvm.Frame.StandsFor.of_agrees {f f' : Frame} {v : Operand} {w : Value} {n : Nat}
    (h : f.StandsFor v w) (agrees : f.Agrees n f') (below : v.Below n) : f'.StandsFor v w := by
  obtain ⟨x, hx, value⟩ := h
  exact ⟨x, hx, (agrees.double? below).trans value⟩

/-- The code goes from one point to another and begins no round on the way, while the machine stays
where it is. -/
def Moves (F : Draft) (start stop : Point) : Prop :=
  ∀ ⦃m f t⦄, start.known f → Tracks F m f t start.stale →
    ∃ f', Takes F start.draft f [] stop.draft f' ∧ stop.known f' ∧ Tracks F m f' t stop.stale

/-- Whenever an action succeeds in which no two kinds are compared, the code goes from one point to
another that the result of the action decides, begins the rounds of the action on the way, and is
then where the machine is. -/
def Follows {α : Type} (F : Draft) (start : Point) (x : Run α) (during : Machine → List Observation)
    (rounds : Machine → List Round) (stop : α → Point) : Prop :=
  ∀ ⦃m m' a⦄, x m = (.ok a, m') → SameKinds (Trace.comparisons (during m)) →
    ∀ ⦃f t⦄, start.known f → Tracks F m f t start.stale →
      ∃ f', Takes F start.draft f (rounds m) (stop a).draft f' ∧ (stop a).known f' ∧
        Tracks F m' f' (t ++ during m) (stop a).stale

namespace Moves

variable {F d d' : Draft} {S : List Text} {P : Frame → Prop} {start middle stop : Point}

theorem trans (first : Moves F start middle) (rest : Moves F middle stop) :
    Moves F start stop := by
  intro m f t hf tracks
  obtain ⟨f₁, takes₁, hf₁, tracks₁⟩ := first hf tracks
  obtain ⟨f', takes₂, hf', tracks'⟩ := rest hf₁ tracks₁
  exact ⟨f', takes₁.trans takes₂, hf', tracks'⟩

/-- The frame stays as it is. -/
theorem of_takes (takes : ∀ f, P f → Takes F d f [] d' f) : Moves F ⟨d, S, P⟩ ⟨d', S, P⟩ :=
  fun _ f _ hf tracks => ⟨f, takes f hf, hf, tracks⟩

/-- More may be stale after it. -/
theorem mono {S' : List Text} (h : Moves F start ⟨d, S, P⟩) (more : S ⊆ S') :
    Moves F start ⟨d, S', P⟩ := by
  intro m f t hf tracks
  obtain ⟨f', takes, hf', tracks'⟩ := h hf tracks
  exact ⟨f', takes, hf', tracks'.mono more⟩

theorem any (h : Moves F start ⟨d, S, P⟩) : Moves F start ⟨d, S, Any⟩ := by
  intro m f t hf tracks
  obtain ⟨f', takes, _, tracks'⟩ := h hf tracks
  exact ⟨f', takes, trivial, tracks'⟩

end Moves

namespace Follows

variable {α β : Type} {F d : Draft} {S : List Text} {P P' : Frame → Prop} {start middle : Point}
  {x : Run α} {k : α → Run β} {during : Machine → List Observation}
  {after : α → Machine → List Observation} {rounds : Machine → List Round}
  {later : α → Machine → List Round} {stop : α → Point}

theorem weaken (h : Follows F ⟨d, S, P'⟩ x during rounds stop) (weaker : ∀ f, P f → P' f) :
    Follows F ⟨d, S, P⟩ x during rounds stop :=
  fun _ _ _ ran kinds _ _ hf tracks => h ran kinds (weaker _ hf) tracks

/-- More may be stale after the action. -/
theorem mono {S' : List Text} {d' : α → Draft} {Q : α → Frame → Prop}
    (h : Follows F start x during rounds fun a => ⟨d' a, S, Q a⟩) (more : S ⊆ S') :
    Follows F start x during rounds fun a => ⟨d' a, S', Q a⟩ := by
  intro m m' a ran kinds f t hf tracks
  obtain ⟨f', takes, hf', tracks'⟩ := h ran kinds hf tracks
  exact ⟨f', takes, hf', tracks'.mono more⟩

/-- The code moves on before the action. -/
theorem before (move : Moves F start middle) (h : Follows F middle x during rounds stop) :
    Follows F start x during rounds stop := by
  intro m m' a ran kinds f t hf tracks
  obtain ⟨f₁, takes, hf₁, tracks₁⟩ := move hf tracks
  obtain ⟨f', takes', hf', tracks'⟩ := h ran kinds hf₁ tracks₁
  exact ⟨f', takes.trans takes', hf', tracks'⟩

/-- The code moves on after the action. -/
theorem andMove {stop' : α → Point} (h : Follows F start x during rounds stop)
    (move : ∀ a, Moves F (stop a) (stop' a)) : Follows F start x during rounds stop' := by
  intro m m' a ran kinds f t hf tracks
  obtain ⟨f₁, takes, hf₁, tracks₁⟩ := h ran kinds hf tracks
  obtain ⟨f', takes', hf', tracks'⟩ := move a hf₁ tracks₁
  refine ⟨f', ?_, hf', tracks'⟩
  simpa using takes.trans takes'

theorem bind {stop' : β → Point} (first : Follows F start x during rounds stop)
    (rest : ∀ a, Follows F (stop a) (k a) (after a) (later a) stop') :
    Follows F start (x >>= k) (Action.observe x during after) (Action.observe x rounds later)
      stop' := by
  intro m m' b ran kinds f t hf tracks
  obtain ⟨a, m₁, ran₁, ran₂⟩ := Action.bind_eq_ok.1 ran
  rw [Action.observe_of_ok ran₁, Trace.comparisons_append] at kinds
  obtain ⟨kinds₁, kinds₂⟩ := SameKinds.append.1 kinds
  obtain ⟨f₁, takes₁, hf₁, tracks₁⟩ := first ran₁ kinds₁ hf tracks
  obtain ⟨f', takes₂, hf', tracks₂⟩ := rest a ran₂ kinds₂ hf₁ tracks₁
  rw [Action.observe_of_ok ran₁, Action.observe_of_ok ran₁, ← List.append_assoc]
  exact ⟨f', takes₁.trans takes₂, hf', tracks₂⟩

/-- The result is made from that of the action, and nothing else is done. -/
theorem andReturn {g : α → β} {stop : β → Point}
    (h : Follows F start x during rounds fun a => stop (g a)) :
    Follows F start (x >>= fun a => pure (g a)) during rounds stop := by
  intro m m' b ran
  obtain ⟨a, m₁, ran₁, hret⟩ := Action.bind_eq_ok.1 ran
  cases hret
  exact h ran₁

/-- Where there is nothing to do, the code moves on. -/
theorem nothing (b : β) {stop : β → Point} (move : Moves F start (stop b)) :
    Follows F start (pure b) Run.unobserved Run.noRounds stop := by
  intro m m' a ran _ f t hf tracks
  cases ran
  rw [Run.unobserved, List.append_nil]
  exact move hf tracks

/-- Two values of one kind are compared before the action. -/
theorem comparing {a b : Value} (h : a.kind = b.kind → Follows F start x during rounds stop) :
    Follows F start x (fun m => .compared a b :: during m) rounds stop := by
  intro m m' c ran kinds f t hf tracks
  obtain ⟨same, kinds⟩ := List.forall_mem_cons.1 kinds
  obtain ⟨f', takes, hf', tracks'⟩ := h same ran kinds hf (tracks.compared [(a, b)])
  refine ⟨f', takes, hf', ?_⟩
  simpa using tracks'

end Follows

section Rules

variable {F : Draft} (fresh : Fresh [] F) {d d' : Draft} {S : List Text} {P Q : Frame → Prop}
  (host : Host)
include fresh

theorem Moves.refl (extend : d.Extends F) : Moves F ⟨d, S, P⟩ ⟨d, S, P⟩ :=
  .of_takes fun f _ => .same fresh extend rfl rfl f

/-- The code passes over labels that were reserved. -/
theorem Moves.reserve {labels : List Label} (reserves : d.Reserves labels d')
    (extend : d'.Extends F) : Moves F ⟨d, S, P⟩ ⟨d', S, P⟩ :=
  .of_takes fun f _ => .same fresh extend reserves.emits.1 reserves.emits.2 f

/-- Code that defines registers is executed. -/
theorem Moves.code {code : List Instr} (emits : d.Emits code d') (extend : d'.Extends F)
    (ran : ∀ f, P f → ∃ f', execCode code f = some f' ∧ f.Agrees d.registers f' ∧ Q f') :
    Moves F ⟨d, S, P⟩ ⟨d', S, Q⟩ := by
  intro m f t hf tracks
  obtain ⟨f', codeRan, agrees, hf'⟩ := ran f hf
  exact ⟨f', .code fresh extend emits.label emits.code codeRan, hf',
    tracks.of_same rfl rfl agrees.slots agrees.printed⟩

/-- The code goes on in the block that it jumps to. -/
theorem Moves.jump {d₁ : Draft} {target next : Label} (closes : d.Closes (.jump target) next d₁)
    (extend : d₁.Extends F) (extend' : d'.Extends F) (label : d'.label = target)
    (code : d'.code = []) (other : target.beginsRound = false) :
    Moves F ⟨d, S, P⟩ ⟨d', S, P⟩ :=
  .of_takes fun f _ => .jump fresh closes extend extend' label code (.other other f)

/-- The code goes on in the block that its condition decides for. -/
theorem Moves.branch {d₁ : Draft} {r : Register} {yes no next : Label} {truth : Bool}
    (closes : d.Closes (.branch r yes no) next d₁) (extend : d₁.Extends F) (extend' : d'.Extends F)
    (label : d'.label = if truth then yes else no) (code : d'.code = [])
    (other : d'.label.beginsRound = false) :
    Moves F ⟨d, S, fun f => P f ∧ f.truth? r = some truth⟩ ⟨d', S, P⟩ := by
  rintro m f t ⟨hf, decided⟩ tracks
  exact ⟨f, .branch fresh closes decided extend extend' label code (.other other f), hf, tracks⟩

/-- At a checkpoint there is nothing to do for the code. -/
theorem Follows.checked {α : Type} {x : Run α} {during : Machine → List Observation}
    {rounds : Machine → List Round} {stop : α → Point} (loc : Option Location)
    (extend : d.Extends F) (h : Follows F ⟨d, S, P⟩ x during rounds stop) :
    Follows F ⟨d, S, P⟩ (Run.checkpoint host loc >>= fun _ => x)
      (Action.observe (Run.checkpoint host loc) Run.unobserved fun _ => during)
      (Action.observe (Run.checkpoint host loc) Run.noRounds fun _ => rounds) stop := by
  have checkpoint : Follows F ⟨d, S, P⟩ (Run.checkpoint host loc) Run.unobserved Run.noRounds
      fun _ => ⟨d, S, P⟩ := by
    intro m m' _ ran _ f t hf tracks
    refine ⟨f, .same fresh extend rfl rfl f, hf, ?_⟩
    rw [Run.unobserved, List.append_nil]
    exact tracks.checkpoint ran
  exact checkpoint.bind fun _ => h

/-- Code that was written for an expression follows its evaluation, and what does not rest on new
registers is still true after it. -/
theorem Follows.evaluation {e : Expr} {code : List Instr} {R : Value → Frame → Prop}
    (emits : d.Emits code d') (extend : d'.Extends F)
    (kept : ∀ f f', f.Agrees d.registers f' → P f → P f')
    (evaluates : ∀ {store n w n' f}, e.eval host.draws store n = (.ok w, n') →
      SameKinds (e.comparisons host.draws store n) → f.Holds store S →
      ∃ f', execCode code f = some f' ∧ f.Agrees d.registers f' ∧ R w f') :
    Follows F ⟨d, S, P⟩ (Run.value host e) (Run.valueTrace host e) Run.noRounds
      fun w => ⟨d', S, fun f => P f ∧ R w f⟩ := by
  intro m m' w ran kinds f t hf tracks
  have evaluated := tracks.evaluated ran fun store => e.comparisons host.draws store
  obtain ⟨drawn, value, rfl⟩ := Run.evaluating_eq_ok ran
  rw [Run.valueTrace, Run.evaluationTrace, Trace.comparisons_map] at kinds
  obtain ⟨f', codeRan, agrees, left⟩ := evaluates value kinds tracks.holds
  refine ⟨f', .code fresh extend emits.label emits.code codeRan, ⟨kept f f' agrees hf, left⟩, ?_⟩
  exact evaluated.of_same rfl rfl agrees.slots agrees.printed

/-- The code of an expression leaves a number for its value. -/
theorem Follows.value {e : Expr} {v : Operand} (h : e.lower d = (.ok v, d'))
    (extend : d'.Extends F) (plain : e.IsPlain) (avoids : e.Avoids S)
    (kept : ∀ f f', f.Agrees d.registers f' → P f → P f') :
    Follows F ⟨d, S, P⟩ (Run.value host e) (Run.valueTrace host e) Run.noRounds
      fun w => ⟨d', S, fun f => P f ∧ f.StandsFor v w⟩ := by
  obtain ⟨code, emits, _, computes⟩ := Expr.emits_lower h
  refine .evaluation fresh host emits extend kept fun ran kinds holds => ?_
  obtain ⟨x, hx, f', codeRan, agrees, value⟩ := computes plain avoids ran kinds holds
  exact ⟨f', codeRan, agrees, x, hx, value⟩

/-- The code of a condition comes to the same decision. -/
theorem Follows.condition {e : Expr} {r : Register} (h : Lowering.condition e d = (.ok r, d'))
    (extend : d'.Extends F) (plain : e.IsPlain) (avoids : e.Avoids S) :
    Follows F ⟨d, S, Any⟩ (Run.value host e) (Run.valueTrace host e) Run.noRounds
      fun w => ⟨d', S, fun f => Any f ∧ f.truth? r = some w.truthy⟩ := by
  obtain ⟨code, emits, decides⟩ := Lowering.emits_condition h
  exact .evaluation fresh host emits extend (fun _ _ _ hf => hf) (decides plain avoids)

/-- The rule for loops: each turn comes back to where it began, or goes to the end of the loop. -/
theorem Follows.loop {start stop : Draft} {turn : Run Bool} {during : Machine → List Observation}
    {rounds : Machine → List Round}
    (h : Follows F ⟨start, S, Any⟩ turn during rounds
      fun again => ⟨if again then start else stop, S, Any⟩)
    (extend : stop.Extends F) (turns : Nat) :
    Follows F ⟨start, S, Any⟩ (Run.loop turns turn) (Run.loopTrace turns turn during)
      (Run.loopRounds turns turn rounds) fun _ => ⟨stop, S, Any⟩ := by
  induction turns with
  | zero =>
    intro m m' _ ran
    cases ran
  | succ turns ih =>
    rw [Run.loop_succ, Run.loopTrace, Run.loopRounds]
    refine h.bind fun again => ?_
    cases again with
    | true => exact ih
    | false => exact .nothing () (.refl fresh extend)

end Rules

/-- The slot of a variable has a number. -/
def SlotHas (var : Text) (x : Number) : Frame → Prop := fun f => f.slots var = some (some x)

section Counting

variable {F : Draft} {d d' : Draft} {S : List Text} {P : Frame → Prop} {var : Text} {x : Number}

/-- The rule for loops with counters: while the counter is not above the last number, a turn comes
back to where it began with the next counter in the slot, and then the code goes to the end. -/
theorem Follows.count {start stop : Draft} {last step : Number} {turn : Number → Run Unit}
    {during : Number → Machine → List Observation} {rounds : Number → Machine → List Round}
    (round : ∀ counter, counter ≤ last →
      Follows F ⟨start, S, SlotHas var counter⟩ (turn counter) (during counter) (rounds counter)
        fun _ => ⟨start, S, SlotHas var (counter + step)⟩)
    (leave : ∀ counter, ¬ counter ≤ last →
      Moves F ⟨start, S, SlotHas var counter⟩ ⟨stop, S, Any⟩)
    (turns : Nat) (counter : Number) :
    Follows F ⟨start, S, SlotHas var counter⟩ (Run.count last step turns turn counter)
      (Run.countTrace last step turns turn during counter)
      (Run.countRounds last step turns turn rounds counter) fun _ => ⟨stop, S, Any⟩ := by
  induction turns generalizing counter with
  | zero =>
    intro m m' _ ran
    cases ran
  | succ turns ih =>
    rw [Run.count_succ, Run.countTrace, Run.countRounds]
    dsimp only
    by_cases more : counter ≤ last
    · rw [if_pos more, if_pos more, if_pos more]
      exact (round counter more).bind fun _ => ih (counter + step)
    · rw [if_neg more, if_neg more, if_neg more]
      exact .nothing () (leave counter more)

/-- A variable that the action leaves bound to a number, and that is not stale then, has the number
in its slot. -/
theorem Follows.andSlot {α : Type} {start : Point} {y : Run α}
    {during : Machine → List Observation} {rounds : Machine → List Round}
    (h : Follows F start y during rounds fun _ => ⟨d', S, Any⟩) (current : var ∉ S)
    (bound : ∀ {m a m'}, y m = (.ok a, m') → m'.store.bindings.find? var = some (.number x)) :
    Follows F start y during rounds fun _ => ⟨d', S, SlotHas var x⟩ := by
  intro m m' a ran kinds f t hf tracks
  obtain ⟨f', takes, _, tracks'⟩ := h ran kinds hf tracks
  obtain ⟨z, hz, slot⟩ := tracks'.holds var _ current (bound ran)
  cases hz
  exact ⟨f', takes, slot, tracks'⟩

variable (fresh : Fresh [] F)
include fresh

/-- A number is stored in the slot of a stale variable. -/
theorem Moves.assign {v : Operand} (h : Lowering.assign var v d = (.ok (), d'))
    (extend : d'.Extends F) (stale : var ∈ S) (value : ∀ f, P f → f.double? v = some x) :
    Moves F ⟨d, S, P⟩ ⟨d', S, SlotHas var x⟩ := by
  intro m f t hf tracks
  obtain ⟨_, declared, label, code, _⟩ := Lowering.assign_eq_ok h
  obtain ⟨contents, allocated⟩ :=
    Option.isSome_iff_exists.1 (tracks.allocated var (extend.slots var declared))
  have stored : execCode [.store v var] f = some (f.setSlot var (some x)) := by
    simp [execCode, Instr.exec, value f hf, allocated]
  exact ⟨_, .code fresh extend label code stored, if_pos rfl, tracks.counted stale x⟩

/-- A variable is bound to what its slot has. -/
theorem Follows.binding (loc : Option Location) (extend : d.Extends F) :
    Follows F ⟨d, S, SlotHas var x⟩ (Run.bindVariable loc var (.number x)) Run.unobserved
      Run.noRounds fun _ => ⟨d, S.filter (· ≠ var), SlotHas var x⟩ := by
  intro m m' _ ran _ f t slot tracks
  cases Run.bindVariable_eq_ok ran
  refine ⟨f, .same fresh extend rfl rfl f, slot, ?_⟩
  rw [Run.unobserved, List.append_nil]
  exact tracks.bound rfl slot

/-- The code goes on in the block that begins a round. -/
theorem Follows.inRound {α : Type} {y : Run α} {during : Machine → List Observation}
    {rounds : Machine → List Round} {stop : α → Point} {d₁ : Draft} {r : Register} {no next : Label}
    {given : Nat} (closes : d.Closes (.branch r (.numbered .forBody given) no) next d₁)
    (extend : d₁.Extends F) (extend' : d'.Extends F) (label : d'.label = .numbered .forBody given)
    (code : d'.code = []) (h : Follows F ⟨d', S, SlotHas var x⟩ y during rounds stop) :
    Follows F ⟨d, S, fun f => SlotHas var x f ∧ f.truth? r = some true⟩ y during
      (fun m => ⟨.numbered .forBody given, var, x⟩ :: rounds m) stop := by
  rintro m m' a ran kinds f t ⟨slot, decided⟩ tracks
  have begins : Begins [(.numbered .forBody given, f)] [⟨.numbered .forBody given, var, x⟩] :=
    .round (r := ⟨.numbered .forBody given, var, x⟩) rfl slot
  have enters : Takes F d f [⟨.numbered .forBody given, var, x⟩] d' f :=
    .branch fresh closes decided extend extend' label code (by rwa [label])
  obtain ⟨f', takes, hf', tracks'⟩ := h ran kinds slot tracks
  exact ⟨f', enters.trans takes, hf', tracks'⟩

end Counting

end Pseudocode

import Pseudocode.Proofs.Program.Parts
import Pseudocode.Proofs.Run.Script

/-!
# What holds all the way

The script of a program is put together from what its statements ask for themselves. A property of
scripts that composition keeps holds of the whole as soon as it holds of these, and what is asked
for together stays together: the value of an assignment is bound at once, and the size of an array
is used at once.

An invariant is such a property. It holds in every state of a run if every effect of a statement
keeps it, and then it also tells what the effects of the run can answer.
-/

namespace Pseudocode

/-- The state that effects lead to from a state on. -/
def Occurrence.lead (m : Machine) : List Occurrence → Machine
  | [] => m
  | o :: later => lead o.after later

theorem Occurrence.lead_append (m : Machine) (first later : List Occurrence) :
    lead m (first ++ later) = lead (lead m first) later := by
  induction first generalizing m with
  | nil => rfl
  | cons o rest ih => exact ih o.after

theorem Occurrence.lead_snoc (m : Machine) (first : List Occurrence) (o : Occurrence) :
    lead m (first ++ [o]) = o.after := lead_append m first [o]

namespace Script

/-- A property of scripts that passes through composition, and that holds of what a statement asks
for itself wherever the statement is fit. -/
structure Closed (fit : Stmt → Prop) (rel : ∀ {α : Type}, Script α → Prop) : Prop where
  pure {α : Type} (a : α) : rel (pure a : Script α)
  exhausted {α : Type} : rel (exhausted : Script α)
  bind {α β : Type} {x : Script α} {f : α → Script β} :
    rel x → (∀ a, rel (f a)) → rel (x >>= f)
  checkpoint {s : Stmt} : fit s → rel (perform (.checkpoint s.loc))
  value {s : Stmt} {e : Expr} : fit s → e ∈ s.operands → rel (perform (.value e))
  assign {loc : Option Location} {name : Text} {e : Expr} : fit (.assign loc name e) →
    rel (act (.value e) fun v => perform (.bindVariable loc name v))
  dimension {loc : Option Location} {name : Text} {size : Expr} : fit (.dimension loc name size) →
    rel (act (.declaredSize loc name size) fun n => perform (.bindArray name n))
  assignElement {loc : Option Location} {name : Text} {index e : Expr} :
    fit (.assignElement loc name index e) →
    rel (act (.elementTarget loc name index e) fun r => perform (.storeElement r.1 r.2.1 r.2.2))
  print {loc : Option Location} {exprs : List Expr} : fit (.print loc exprs) →
    rel (act (.printedLine exprs) fun line => perform (.writeLine loc line))
  read {loc : Option Location} {targets : List Target} {t : Target} : fit (.read loc targets) →
    t ∈ targets → rel (readInto t)
  count {loc : Option Location} {var : Text} {first last step : Number} {body : List Stmt} :
    fit (.forLoop loc var first last step body) →
    ∀ counter, rel (perform (.bindVariable loc var (.number counter)))

namespace Closed

variable {fit : Stmt → Prop} {rel : ∀ {α : Type}, Script α → Prop}

/-- One effect and then the rest. -/
theorem act (c : Closed fit rel) {α β : Type} {effect : Effect β} {next : β → Script α}
    (first : rel (perform effect)) (rest : ∀ b, rel (next b)) : rel (.act effect next) :=
  c.bind first rest

theorem readAll (c : Closed fit rel) {loc : Option Location} {targets : List Target}
    (h : fit (.read loc targets)) : rel (Script.readAll targets) := by
  have all : ∀ rest : List Target, (∀ t ∈ rest, t ∈ targets) → rel (Script.readAll rest) := by
    intro rest among
    induction rest with
    | nil => exact c.pure ()
    | cons t rest ih =>
      obtain ⟨first, others⟩ := List.forall_mem_cons.1 among
      exact c.bind (c.read h first) fun _ => ih others
  exact all targets fun _ => id

theorem loop (c : Closed fit rel) {turn : Script Bool} (h : rel turn) (turns : Nat) :
    rel (loop turns turn) := by
  induction turns with
  | zero => exact c.exhausted
  | succ turns ih =>
    refine c.bind h fun again => ?_
    cases again with
    | true => exact ih
    | false => exact c.pure ()

theorem counting (c : Closed fit rel) {turn : Number → Script Unit}
    (h : ∀ counter, rel (turn counter)) (last step : Number) (turns : Nat) (first : Number) :
    rel (Script.count last step turns turn first) := by
  induction turns generalizing first with
  | zero => exact c.exhausted
  | succ turns ih =>
    rw [Script.count]
    split
    · exact c.bind (h first) fun _ => ih _
    · exact c.pure ()

-- The recursion is that of the program, one case for each form of statement.
mutual

theorem stmt (c : Closed fit rel) (turns : Nat) (s : Stmt) (all : ∀ a ∈ s.parts, fit a) :
    rel (s.script turns) := by
  rw [Stmt.parts.eq_def] at all
  obtain ⟨own, inner⟩ := List.forall_mem_cons.1 all
  rw [Stmt.script.eq_def]
  refine c.act (c.checkpoint own) fun _ => ?_
  match s with
  | .assign _ _ _ => exact c.assign own
  | .dimension _ _ _ => exact c.dimension own
  | .assignElement _ _ _ _ => exact c.assignElement own
  | .print _ _ => exact c.print own
  | .read _ _ => exact c.readAll own
  | .branch _ cond yes no =>
    obtain ⟨inYes, inNo⟩ := List.forall_mem_append.1 inner
    refine c.act (c.value own (List.mem_singleton_self cond)) fun v => ?_
    cases v.truthy with
    | true => exact c.block turns yes inYes
    | false => exact c.otherBranch turns no inNo
  | .select _ subject labels otherwise =>
    obtain ⟨inCases, inRest⟩ := List.forall_mem_append.1 inner
    refine c.act (c.value own List.mem_cons_self) fun v => ?_
    refine c.labelled own turns v labels (fun a mem => List.mem_cons_of_mem _ mem) inCases ?_
    exact c.block turns otherwise inRest
  | .whileLoop loc cond body =>
    refine c.loop (c.act (c.checkpoint own) fun _ => ?_) turns
    refine c.act (c.value own (List.mem_singleton_self cond)) fun v => ?_
    cases v.truthy with
    | true => exact c.bind (c.block turns body inner) fun _ => c.pure true
    | false => exact c.pure false
  | .repeatLoop loc body cond =>
    refine c.loop (c.act (c.checkpoint own) fun _ => ?_) turns
    refine c.bind (c.block turns body inner) fun _ => ?_
    exact c.act (c.value own (List.mem_singleton_self cond)) fun v => c.pure _
  | .forLoop loc var first last step body =>
    refine c.counting (fun counter => ?_) last step turns first
    refine c.act (c.checkpoint own) fun _ => ?_
    exact c.act (c.count own counter) fun _ => c.block turns body inner

theorem block (c : Closed fit rel) (turns : Nat) (ss : List Stmt)
    (all : ∀ a ∈ partsOfBlock ss, fit a) : rel (scriptBlock turns ss) := by
  match ss with
  | [] =>
    rw [scriptBlock]
    exact c.pure ()
  | s :: rest =>
    rw [partsOfBlock] at all
    obtain ⟨first, others⟩ := List.forall_mem_append.1 all
    rw [scriptBlock]
    exact c.bind (c.stmt turns s first) fun _ => c.block turns rest others

theorem otherBranch (c : Closed fit rel) (turns : Nat) (no : Option (List Stmt))
    (all : ∀ a ∈ partsOfElse no, fit a) : rel (scriptElse turns no) := by
  match no with
  | none =>
    rw [scriptElse]
    exact c.pure ()
  | some body =>
    rw [partsOfElse] at all
    rw [scriptElse]
    exact c.block turns body all

theorem labelled (c : Closed fit rel) {s : Stmt} (own : fit s) (turns : Nat) (subject : Value)
    (labels : List (Expr × List Stmt)) {other : Script Unit}
    (among : ∀ e ∈ labels.map (·.1), e ∈ s.operands) (all : ∀ a ∈ partsOfCases labels, fit a)
    (h : rel other) : rel (scriptCases turns subject labels other) := by
  match labels with
  | [] =>
    rw [scriptCases]
    exact h
  | (label, body) :: rest =>
    rw [List.map_cons] at among
    obtain ⟨label, among⟩ := List.forall_mem_cons.1 among
    rw [partsOfCases] at all
    obtain ⟨first, others⟩ := List.forall_mem_append.1 all
    rw [scriptCases]
    refine c.act (c.value own label) fun v => ?_
    cases v.same subject with
    | true => exact c.block turns body first
    | false => exact c.labelled own turns subject rest among others h

end

end Closed

variable {α β : Type} {host : Host} {m m' : Machine}

theorem history_bind_of_ok {x : Script α} {f : α → Script β} {a : α}
    (ran : x.run host m = (.ok a, m')) :
    (x >>= f).history host m = x.history host m ++ (f a).history host m' := by
  induction x generalizing m with
  | done b =>
    cases ran
    rfl
  | exhausted => cases ran
  | act effect next ih =>
    rcases answer : effect.perform host m with ⟨halt | b, m₁⟩
    · rw [run_act_of_error answer] at ran
      cases ran
    · rw [run_act_of_ok answer] at ran
      rw [history_act_of_ok answer, List.cons_append, ← ih b ran]
      exact history_act_of_ok answer

theorem history_bind_of_error {x : Script α} {f : α → Script β} {halt : Halt}
    (ran : x.run host m = (.error halt, m')) :
    (x >>= f).history host m = x.history host m := by
  induction x generalizing m with
  | done b => cases ran
  | exhausted => rfl
  | act effect next ih =>
    rcases answer : effect.perform host m with ⟨halt' | b, m₁⟩
    · rw [history_act_of_error answer]
      exact history_act_of_error answer
    · rw [run_act_of_ok answer] at ran
      rw [history_act_of_ok answer, ← ih b ran]
      exact history_act_of_ok answer

/-- The error of a walk is that of its last effect. -/
theorem exists_last_of_run {x : Script α} {e : RuntimeError}
    (ran : x.run host m = (.error (.failed e), m')) :
    ∃ before o, x.history host m = before ++ [o] ∧ o.answer = .error (.failed e) := by
  induction x generalizing m with
  | done b => cases ran
  | exhausted => cases ran
  | act effect next ih =>
    rcases answer : effect.perform host m with ⟨halt | b, m₁⟩
    · rw [run_act_of_error answer] at ran
      cases ran
      rw [history_act_of_error answer]
      exact ⟨[], _, rfl, rfl⟩
    · rw [run_act_of_ok answer] at ran
      obtain ⟨before, o, split, failed⟩ := ih b ran
      rw [history_act_of_ok answer, split]
      exact ⟨_ :: before, o, rfl, failed⟩

/-- Every effect of a walk is had in the state that the effects in front of it lead to. -/
theorem perform_of_history {x : Script α} {before after : List Occurrence} {o : Occurrence}
    (split : x.history host m = before ++ o :: after) :
    o.effect.perform host (Occurrence.lead m before) = (o.answer, o.after) := by
  induction x generalizing m before with
  | done b => exact absurd split (by simp [history])
  | exhausted => exact absurd split (by simp [history])
  | act effect next ih =>
    rcases answer : effect.perform host m with ⟨halt | b, m₁⟩
    · rw [history_act_of_error answer] at split
      rcases before with _ | ⟨first, before⟩
      · cases split
        exact answer
      · exact absurd (List.cons.inj split).2 (by simp)
    · rw [history_act_of_ok answer] at split
      rcases before with _ | ⟨first, before⟩
      · cases split
        exact answer
      · obtain ⟨rfl, later⟩ := List.cons.inj split
        have performed := ih b later
        exact performed

/-- A walk ends in the state that its effects lead to. -/
theorem run_snd_eq (x : Script α) (m : Machine) :
    (x.run host m).2 = Occurrence.lead m (x.history host m) := by
  induction x generalizing m with
  | done b => rfl
  | exhausted => rfl
  | act effect next ih =>
    rcases answer : effect.perform host m with ⟨halt | b, m₁⟩
    · rw [run_act_of_error answer, history_act_of_error answer]
      rfl
    · rw [run_act_of_ok answer, history_act_of_ok answer, ih]
      rfl

variable {inv : Machine → Prop} {good : Occurrence → Prop}

/-- From a state on, a script is at states with a property only, and what its effects answer is
good. -/
def GoesWell (host : Host) (inv : Machine → Prop) (good : Occurrence → Prop) (m : Machine)
    (x : Script α) : Prop :=
  (∀ o ∈ x.history host m, inv o.after ∧ good o) ∧ inv (x.run host m).2

/-- A script goes well from any state with the property. -/
def Upholds (host : Host) (inv : Machine → Prop) (good : Occurrence → Prop) (x : Script α) :
    Prop :=
  ∀ m, inv m → GoesWell host inv good m x

theorem GoesWell.act {effect : Effect β} {next : β → Script α}
    (own : ∀ r m', effect.perform host m = (r, m') → inv m' ∧ good ⟨effect, r, m'⟩)
    (rest : ∀ b m', effect.perform host m = (.ok b, m') → GoesWell host inv good m' (next b)) :
    GoesWell host inv good m (act effect next) := by
  rcases answer : effect.perform host m with ⟨halt | b, m'⟩
  · rw [GoesWell, history_act_of_error answer, run_act_of_error answer]
    exact ⟨List.forall_mem_singleton.2 (own _ _ answer), (own _ _ answer).1⟩
  · rw [GoesWell, history_act_of_ok answer, run_act_of_ok answer]
    exact ⟨List.forall_mem_cons.2 ⟨own _ _ answer, (rest b m' answer).1⟩, (rest b m' answer).2⟩

theorem GoesWell.perform {effect : Effect α}
    (own : ∀ r m', effect.perform host m = (r, m') → inv m' ∧ good ⟨effect, r, m'⟩) :
    GoesWell host inv good m (perform effect) :=
  .act own fun _ _ answer => ⟨List.forall_mem_nil _, (own _ _ answer).1⟩

namespace Upholds

theorem pure (a : α) : Upholds host inv good (pure a : Script α) :=
  fun _ holds => ⟨List.forall_mem_nil _, holds⟩

theorem exhausted : Upholds host inv good (exhausted : Script α) :=
  fun _ holds => ⟨List.forall_mem_nil _, holds⟩

theorem bind {x : Script α} {f : α → Script β} (first : Upholds host inv good x)
    (rest : ∀ a, Upholds host inv good (f a)) : Upholds host inv good (x >>= f) := by
  intro m holds
  obtain ⟨states, final⟩ := first m holds
  rcases ran : x.run host m with ⟨halt | a, m'⟩
  · rw [GoesWell, history_bind_of_error ran, run_bind, Action.bind_of_error ran]
    rw [ran] at final
    exact ⟨states, final⟩
  · rw [ran] at final
    obtain ⟨later, last⟩ := rest a m' final
    rw [GoesWell, history_bind_of_ok ran, run_bind, Action.bind_of_ok ran]
    exact ⟨List.forall_mem_append.2 ⟨states, later⟩, last⟩

end Upholds

end Script

namespace Program

/-- A run comes to a state by the effects that it has had so far. -/
structure Reaches (turns : Nat) (host : Host) (p : Program) (channels : Channels)
    (past : List Occurrence) (m : Machine) : Prop where
  begins : past <+: p.history turns host channels
  leads : m = Occurrence.lead ⟨.empty, 0, #[], channels⟩ past

variable {turns : Nat} {host : Host} {p : Program} {channels : Channels}
  {inv : Machine → Prop} {good : Occurrence → Prop}

/-- The state that is reported is the one that the run comes to by all of its effects. -/
theorem reaches_report :
    ∃ m, p.Reaches turns host channels (p.history turns host channels) m ∧
      (p.runFor turns host channels).1.store = m.store ∧
      (p.runFor turns host channels).1.log = m.log ∧
      (p.runFor turns host channels).2 = m.channels := by
  refine ⟨_, ⟨List.prefix_refl _, Script.run_snd_eq (p.script turns) _⟩, ?_⟩
  rw [runFor_eq_script]
  exact ⟨rfl, rfl, rfl⟩

/-- What is so at the start and after every effect is so in all states of a run. -/
theorem Reaches.holds {past : List Occurrence} {m : Machine} (inv : Machine → Prop)
    (reached : p.Reaches turns host channels past m) (start : inv ⟨.empty, 0, #[], channels⟩)
    (states : ∀ o ∈ p.history turns host channels, inv o.after) : inv m := by
  obtain ⟨begins, rfl⟩ := reached
  rcases List.eq_nil_or_concat past with rfl | ⟨before, o, rfl⟩
  · exact start
  · rw [List.concat_eq_append, Occurrence.lead_snoc]
    exact states o (begins.subset (by simp))

/-- An invariant holds in all states of a run, and what is answered is good. -/
theorem of_upholds (h : (p.script turns).Upholds host inv good)
    (start : inv ⟨.empty, 0, #[], channels⟩) :
    (∀ past m, p.Reaches turns host channels past m → inv m) ∧
      ∀ o ∈ p.history turns host channels, good o := by
  obtain ⟨states, _⟩ := h _ start
  refine ⟨fun past m reached => ?_, fun o mem => (states o mem).2⟩
  exact reached.holds inv start fun o mem => (states o mem).1

/-- Every effect on the way to a state was had in a state of the run and led to one. -/
theorem Reaches.exists_before {before later : List Occurrence} {o : Occurrence} {m : Machine}
    (reached : p.Reaches turns host channels (before ++ o :: later) m) :
    ∃ s, p.Reaches turns host channels before s ∧
      p.Reaches turns host channels (before ++ [o]) o.after ∧
      o.effect.perform host s = (o.answer, o.after) := by
  obtain ⟨rest, split⟩ := reached.begins
  rw [List.append_assoc, List.cons_append] at split
  have first : before ++ [o] <+: p.history turns host channels :=
    ⟨later ++ rest, (List.append_cons _ _ _).symm.trans split⟩
  exact ⟨_, ⟨(List.prefix_append _ _).trans first, rfl⟩,
    ⟨first, (Occurrence.lead_snoc _ _ _).symm⟩,
    Script.perform_of_history (x := p.script turns) split.symm⟩

/-- What every effect keeps stays from one state of a run to all later ones. -/
theorem Reaches.stays {past later : List Occurrence} {m m' : Machine}
    (own : ∀ {α : Type} (effect : Effect α) {r : Except Halt α} {m m' : Machine},
      effect.perform host m = (r, m') → inv m → inv m')
    (reached : p.Reaches turns host channels past m)
    (onward : p.Reaches turns host channels (past ++ later) m') (holds : inv m) : inv m' := by
  induction later generalizing past m with
  | nil =>
    rw [List.append_nil] at onward
    exact onward.leads.trans reached.leads.symm ▸ holds
  | cons o later ih =>
    obtain ⟨s, there, next, performed⟩ := onward.exists_before
    rw [there.leads, ← reached.leads] at performed
    rw [List.append_cons] at onward
    exact ih next onward (own o.effect performed holds)

/-- The error of a run is that of its last effect. -/
theorem exists_last_of_error? {e : RuntimeError}
    (failed : (p.runFor turns host channels).1.error? = some e) :
    ∃ before o, p.history turns host channels = before ++ [o] ∧ o.answer = .error (.failed e) := by
  obtain ⟨m, ran⟩ := exists_run_of_error? failed
  exact Script.exists_last_of_run ran

theorem exists_failed_of_error? {e : RuntimeError}
    (failed : (p.runFor turns host channels).1.error? = some e) :
    ∃ o ∈ p.history turns host channels, o.answer = .error (.failed e) := by
  obtain ⟨before, o, split, answer⟩ := exists_last_of_error? failed
  exact ⟨o, by rw [split]; exact List.mem_append_right _ (List.mem_singleton_self o), answer⟩

end Program

end Pseudocode

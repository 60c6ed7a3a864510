import Pseudocode.Proofs.Run.Input

/-!
# Channels that give the same lines

What a stream of bytes or a list of lines answers is decided by the lines that are left: the first
of them, or that there are none. So two channels with the same lines left answer alike for as long
as they are asked, whatever the host does in between, and a channel that is asked by a host that has
stopped keeps its lines. A stream over bytes that lines were written as has these lines left, since
no newline stands within them and no carriage return at their ends.
-/

namespace Pseudocode

/-- A line as it can be written and read again: it has no newline, and no carriage return at its
end. -/
def Text.IsLine (t : Text) : Prop := 10 ∉ t.bytes ∧ t.bytes.getLast? ≠ some 13

instance (t : Text) : Decidable t.IsLine := inferInstanceAs (Decidable (_ ∧ _))

section Bytes

variable {line rest : List UInt8}

theorem splitLine?_line (within : 10 ∉ line) (rest : List UInt8) :
    splitLine? (line ++ 10 :: rest) = some (line, rest) := by
  induction line with
  | nil => rfl
  | cons b line ih =>
    obtain ⟨other, within⟩ := not_or.1 (mt List.mem_cons.2 within)
    rw [List.cons_append, splitLine?, if_neg (Ne.symm other), ih within]
    rfl

theorem splitLine?_of_not_mem (within : 10 ∉ line) : splitLine? line = none := by
  cases split : splitLine? line with
  | none => rfl
  | some r =>
    obtain ⟨whole, -⟩ := splitLine?_eq_some split
    rw [whole] at within
    exact absurd (List.mem_append_right _ List.mem_cons_self) within

/-- Nothing of a line is taken for its end. -/
theorem dropWhile_line {t : Text} (isLine : t.IsLine) :
    t.bytes.reverse.dropWhile (fun b => b == 10 || b == 13) = t.bytes.reverse := by
  obtain ⟨within, last⟩ := isLine
  rw [List.getLast?_eq_head?_reverse] at last
  rw [← List.mem_reverse] at within
  cases reversed : t.bytes.reverse with
  | nil => rfl
  | cons b rest =>
    rw [reversed] at last within
    have noNewline : b ≠ 10 := fun same => within (same ▸ List.mem_cons_self)
    have noReturn : b ≠ 13 := fun same => last (congrArg some same)
    exact List.dropWhile_cons_of_neg (by simp [noNewline, noReturn])

/-- Any number of carriage returns behind a line is removed, and nothing of the line. -/
theorem trimLineEnd_returns {t : Text} (isLine : t.IsLine) (count : Nat) :
    trimLineEnd (t.bytes ++ List.replicate count 13) = t.bytes := by
  have returns : ∀ b ∈ List.replicate count (13 : UInt8), (b == 10 || b == 13) = true := by
    intro b mem
    rw [(List.mem_replicate.1 mem).2]
    rfl
  rw [trimLineEnd, List.reverse_append, List.reverse_replicate,
    List.dropWhile_append_of_pos returns, dropWhile_line isLine, List.reverse_reverse]

end Bytes

namespace Input

/-- Bytes that a stream finds these lines in: each ends with a newline, and the last may end with
the bytes instead if it is not empty. Carriage returns may stand at the ends of lines. -/
inductive Holds : List UInt8 → List Text → Prop where
  | nothing : Holds [] []
  | ended {t : Text} {rest : List UInt8} {lines : List Text} (isLine : t.IsLine) (returns : Nat)
      (later : Holds rest lines) :
      Holds (t.bytes ++ List.replicate returns 13 ++ 10 :: rest) (t :: lines)
  | unended {t : Text} (isLine : t.IsLine) (returns : Nat)
      (some : t.bytes ++ List.replicate returns 13 ≠ []) :
      Holds (t.bytes ++ List.replicate returns 13) [t]

/-- The lines that a stream has left are those that its bytes hold. -/
theorem Holds.streamLines {bytes : List UInt8} {lines : List Text} (holds : Holds bytes lines) :
    streamLines bytes false = lines := by
  have newline {t : Text} (isLine : t.IsLine) (returns : Nat) :
      10 ∉ t.bytes ++ List.replicate returns 13 := by
    intro mem
    rcases List.mem_append.1 mem with own | added
    · exact isLine.1 own
    · exact absurd (List.mem_replicate.1 added).2 (by decide)
  induction holds with
  | nothing => rfl
  | @ended t rest lines isLine returns _ ih =>
    have split := splitLine?_line (newline isLine returns) rest
    rw [Input.streamLines, endedLines_of_line split, openLine_of_line split, List.map_cons,
      trimLineEnd_returns isLine]
    exact congrArg (t :: ·) ih
  | @unended t isLine returns some =>
    have split := splitLine?_of_not_mem (newline isLine returns)
    have nonempty : (t.bytes ++ List.replicate returns 13).isEmpty = false :=
      List.isEmpty_eq_false_iff.2 some
    rw [Input.streamLines, endedLines_of_no_line split, openLine_of_no_line split, Bool.false_or,
      nonempty, trimLineEnd_returns isLine]
    rfl

section Forms

variable {lines : List Text} (plain : ∀ t ∈ lines, t.IsLine)
include plain

/-- Lines that are written with a newline, or with carriage returns and a newline, are held by what
is written. -/
theorem holds_written (returns : Nat) :
    Holds (lines.flatMap fun t => t.bytes ++ List.replicate returns 13 ++ [10]) lines := by
  induction lines with
  | nil => exact .nothing
  | cons t lines ih =>
    obtain ⟨isLine, plain⟩ := List.forall_mem_cons.1 plain
    have held := Holds.ended isLine returns (ih plain)
    rwa [List.flatMap_cons, List.append_assoc, List.singleton_append]

/-- They are held without the final newline as well, if the last of them is not empty. -/
theorem holds_written_dropLast (returns : Nat) (last : lines.getLast? ≠ some Text.empty) :
    Holds (lines.flatMap fun t => t.bytes ++ List.replicate returns 13 ++ [10]).dropLast lines := by
  induction lines with
  | nil => exact .nothing
  | cons t lines ih =>
    obtain ⟨isLine, plain'⟩ := List.forall_mem_cons.1 plain
    cases lines with
    | nil =>
      have some : t.bytes ++ List.replicate returns 13 ≠ [] := by
        intro none
        refine last (congrArg Option.some (Text.ext ?_))
        exact (List.append_eq_nil_iff.1 none).1
      have held := Holds.unended isLine returns some
      rwa [List.flatMap_cons, List.flatMap_nil, List.append_nil, List.dropLast_concat]
    | cons u lines =>
      -- The newline that goes is that of a later line, so this one has its own.
      rw [List.getLast?_cons_cons] at last
      have held := Holds.ended isLine returns (ih plain' last)
      have more :
          (u :: lines).flatMap (fun t => t.bytes ++ List.replicate returns 13 ++ [10]) ≠ [] := by
        rw [List.flatMap_cons]
        simp
      rw [List.flatMap_cons, List.dropLast_append_of_ne_nil more, List.append_assoc,
        List.singleton_append]
      exact held

/-- What lines are written as holds these lines, with either line end, and without the last newline
if the last line is not empty. -/
theorem holds_of_written {form : Text}
    (written : form = writtenText lines ∨ form = Text.concat (lines.map fun t => t ++ "\r\n"))
    {bytes : List UInt8} (ends : bytes = form.bytes ∨
      (lines.getLast? ≠ some Text.empty ∧ bytes = form.bytes.dropLast)) : Holds bytes lines := by
  obtain ⟨returns, formed⟩ : ∃ returns, form.bytes =
      lines.flatMap fun t => t.bytes ++ List.replicate returns 13 ++ [10] := by
    rcases written with rfl | rfl
    · refine ⟨0, ?_⟩
      rw [writtenText, Text.concat, List.flatMap_map]
      refine congrArg (lines.flatMap ·) (funext fun t => ?_)
      rw [List.replicate_zero, List.append_nil]
      rfl
    · refine ⟨1, ?_⟩
      rw [Text.concat, List.flatMap_map]
      refine congrArg (lines.flatMap ·) (funext fun t => ?_)
      rw [List.append_assoc]
      rfl
  rcases ends with rfl | ⟨last, rfl⟩
  · exact formed ▸ holds_written plain returns
  · exact formed ▸ holds_written_dropLast plain returns last

end Forms

/-! ### Asking again and again -/

/-- What requests are answered, one after another, and the channel after them. For each request
there is the reason why the host has stopped by then, if it has, and the variable that a line is
wanted for. -/
def readEach : List (Option ChannelError × Text) → Input →
    List (Except ChannelError Text) × Input
  | [], input => ([], input)
  | (stop, name) :: requests, input =>
    let read := input.readUnless stop name
    let later := readEach requests read.2
    (read.1 :: later.1, later.2)

/-- What requests are answered when these lines are left, and the lines that are left after them. A
host that has stopped gets its reason back and takes nothing. -/
def answers : List (Option ChannelError) → List Text → List (Except ChannelError Text) × List Text
  | [], left => ([], left)
  | some cause :: stops, left => (.error cause :: (answers stops left).1, (answers stops left).2)
  | none :: stops, [] => (.error .noInput :: (answers stops []).1, (answers stops []).2)
  | none :: stops, t :: left => (.ok t :: (answers stops left).1, (answers stops left).2)

/-- A channel that shows no prompts and that no device error breaks. -/
def IsSteady : Input → Prop
  | .lines _ => True
  | .stream _ broken => broken = false
  | .editor _ _ => False

section Steady

variable {input input' : Input} {name : Text} {r : Except ChannelError Text}

/-- A stream that does not break gives a line, or there is nothing in it. -/
theorem readStream_steady {bytes after : List UInt8} (read : readStream bytes false = (r, after)) :
    (∃ t, r = .ok t) ∨ (r = .error .noInput ∧ bytes = [] ∧ after = []) := by
  rw [readStream.eq_def] at read
  split at read
  · cases read
    exact .inl ⟨_, rfl⟩
  · rw [if_neg Bool.false_ne_true] at read
    split at read
    · next empty =>
      cases read
      exact .inr ⟨rfl, List.isEmpty_iff.1 empty, rfl⟩
    · cases read
      exact .inl ⟨_, rfl⟩

/-- A request to a steady channel takes the first line that is left, or finds that there is none. -/
theorem IsSteady.readLine (steady : input.IsSteady) (read : input.readLine name = (r, input')) :
    input'.IsSteady ∧ ((∃ t, r = .ok t ∧ input.remaining = t :: input'.remaining) ∨
      (r = .error .noInput ∧ input.remaining = [] ∧ input'.remaining = [])) := by
  have asked : input.readUnless none name = (r, input') := read
  have taken := remaining_of_readUnless asked
  cases input with
  | editor rest broken => cases steady
  | lines rest =>
    cases rest with
    | nil =>
      cases read
      exact ⟨trivial, .inr ⟨rfl, rfl, rfl⟩⟩
    | cons t rest =>
      cases read
      exact ⟨trivial, .inl ⟨t, rfl, rfl⟩⟩
  | stream rest broken =>
    cases steady
    obtain ⟨⟨line, after⟩, found⟩ : ∃ result, readStream rest false = result := ⟨_, rfl⟩
    rw [Input.readLine, found] at read
    cases read
    rcases readStream_steady found with ⟨t, rfl⟩ | ⟨rfl, rfl, rfl⟩
    · exact ⟨rfl, .inl ⟨t, rfl, taken⟩⟩
    · exact ⟨rfl, .inr ⟨rfl, rfl, rfl⟩⟩

/-- **The lines that are left decide all answers** of a steady channel. -/
theorem IsSteady.readEach (steady : input.IsSteady)
    (requests : List (Option ChannelError × Text)) :
    (readEach requests input).1 = (answers (requests.map (·.1)) input.remaining).1 ∧
      (readEach requests input).2.remaining =
        (answers (requests.map (·.1)) input.remaining).2 := by
  -- The channel changes from request to request, and all that is kept of it is the lines left.
  induction requests generalizing input with
  | nil => exact ⟨rfl, rfl⟩
  | cons request requests ih =>
    obtain ⟨stop, name⟩ := request
    cases stop with
    | some cause =>
      obtain ⟨same, left⟩ := ih steady
      exact ⟨congrArg (Except.error cause :: ·) same, left⟩
    | none =>
      obtain ⟨⟨r, input'⟩, read⟩ : ∃ result, input.readLine name = result := ⟨_, rfl⟩
      obtain ⟨steady', ⟨t, rfl, first⟩ | ⟨rfl, empty, empty'⟩⟩ := steady.readLine read
      · obtain ⟨same, left⟩ := ih steady'
        rw [Input.readEach, readUnless, read, List.map_cons, first, answers]
        exact ⟨congrArg (Except.ok t :: ·) same, left⟩
      · obtain ⟨same, left⟩ := ih steady'
        rw [empty'] at same left
        rw [Input.readEach, readUnless, read, List.map_cons, empty, answers]
        exact ⟨congrArg (Except.error ChannelError.noInput :: ·) same, left⟩

end Steady

/-- The answer to the request with this number, counted from zero, when these lines are left at
first. -/
def answer (left : List Text) (i : Nat) : Except ChannelError Text :=
  (left[i]?).elim (.error .noInput) .ok

/-- A host that goes on gets the lines in their order, and then learns each time that there is no
more input. -/
theorem answers_replicate (count : Nat) (left : List Text) :
    answers (List.replicate count none) left =
      ((List.range count).map (answer left), left.drop count) := by
  induction count generalizing left with
  | zero => rfl
  | succ count ih =>
    rw [List.replicate_succ, List.range_succ_eq_map, List.map_cons, List.map_map]
    cases left with
    | nil =>
      rw [answers, ih, List.drop_nil, List.drop_nil]
      rfl
    | cons t left =>
      rw [answers, ih]
      rfl

theorem readEach_append (first later : List (Option ChannelError × Text)) (input : Input) :
    readEach (first ++ later) input =
      ((readEach first input).1 ++ (readEach later (readEach first input).2).1,
        (readEach later (readEach first input).2).2) := by
  induction first generalizing input with
  | nil => rfl
  | cons request first ih =>
    obtain ⟨stop, name⟩ := request
    rw [List.cons_append, readEach]
    simp only [ih]
    rfl

/-- Requests by a host that has stopped get the reason back, each of them, and take nothing. -/
theorem readEach_stopped (stopped : List (ChannelError × Text)) (input : Input) :
    readEach (stopped.map fun request => (some request.1, request.2)) input =
      (stopped.map (.error ·.1), input) := by
  induction stopped with
  | nil => rfl
  | cons request stopped ih =>
    rw [List.map_cons, readEach, readUnless]
    simp only [ih]
    rfl

/-- A host that goes on for some requests and then stops gets the lines and then its reasons, and
the channel stays as the last request before that has left it. -/
theorem IsSteady.readEach_until {input : Input} (steady : input.IsSteady) (names : List Text)
    (stopped : List (ChannelError × Text)) :
    Input.readEach (names.map (none, ·) ++ stopped.map fun request => (some request.1, request.2))
        input =
      ((List.range names.length).map (answer input.remaining) ++ stopped.map (.error ·.1),
        (Input.readEach (names.map (none, ·)) input).2) := by
  have unstopped : names.map ((·.1) ∘ (Prod.mk none ·)) =
      List.replicate names.length (none : Option ChannelError) :=
    List.map_const'
  obtain ⟨answered, -⟩ := steady.readEach (names.map (none, ·))
  rw [readEach_append, readEach_stopped, answered, List.map_map, unstopped, answers_replicate]

/-- Reads that are interrupted from some number on are requests one after another. -/
theorem readMany_eq_readEach (cancelAt : Option Nat) (name : Text) (index count : Nat)
    (input : Input) :
    readMany cancelAt name index count input =
      (readEach ((List.range' index count).map fun i =>
        (cancelAt.bind fun n => if n ≤ i then some .canceled else none, name)) input).1 := by
  induction count generalizing index input with
  | zero => rfl
  | succ count ih =>
    rw [List.range'_succ, List.map_cons, readMany.eq_def, readEach]
    simp only [ih]
    cases cancelAt with
    | none => rfl
    | some n => rfl

/-- **Lines that were written are read again as they are.** A stream over what lines are written as
and the list of these lines answer all requests alike, whenever the host stops and whatever it stops
for, and the same lines are left in them. Both give the lines in their order and then report that
there is no more input, for as long as they are asked; once the host has stopped, they report why,
and they stay as they are. It makes no difference whether lines end with a newline or with a
carriage return and a newline, and the last newline may be missing behind a line that is not
empty. -/
theorem written_lines_read_back {lines : List Text} (plain : ∀ t ∈ lines, t.IsLine) {form : Text}
    (written : form = writtenText lines ∨ form = Text.concat (lines.map fun t => t ++ "\r\n"))
    {bytes : List UInt8} (ends : bytes = form.bytes ∨
      (lines.getLast? ≠ some Text.empty ∧ bytes = form.bytes.dropLast)) :
    (∀ requests : List (Option ChannelError × Text),
      (readEach requests (.stream bytes false)).1 = (readEach requests (.lines lines)).1 ∧
      (readEach requests (.stream bytes false)).2.remaining =
        (readEach requests (.lines lines)).2.remaining) ∧
    (∀ input ∈ [Input.stream bytes false, Input.lines lines],
      ∀ (names : List Text) (stopped : List (ChannelError × Text)),
        readEach (names.map (none, ·) ++ stopped.map fun request => (some request.1, request.2))
            input =
          ((List.range names.length).map (answer lines) ++ stopped.map (.error ·.1),
            (readEach (names.map (none, ·)) input).2)) ∧
    (∀ (cancelAt : Option Nat) (name : Text) (count : Nat),
      readMany cancelAt name 0 count (.stream bytes false) =
        readMany cancelAt name 0 count (.lines lines)) := by
  have steady : (Input.stream bytes false).IsSteady := rfl
  have steady' : (Input.lines lines).IsSteady := trivial
  have same_left : (Input.stream bytes false).remaining = (Input.lines lines).remaining :=
    (holds_of_written plain written ends).streamLines
  have agree (requests : List (Option ChannelError × Text)) :
      (readEach requests (.stream bytes false)).1 = (readEach requests (.lines lines)).1 ∧
        (readEach requests (.stream bytes false)).2.remaining =
          (readEach requests (.lines lines)).2.remaining := by
    obtain ⟨stream, stream'⟩ := steady.readEach requests
    obtain ⟨list, list'⟩ := steady'.readEach requests
    rw [stream, stream', list, list', same_left]
    exact ⟨rfl, rfl⟩
  refine ⟨agree, ?_, ?_⟩
  · intro input either names stopped
    rcases List.mem_cons.1 either with rfl | either
    · rw [steady.readEach_until, same_left]
      rfl
    · obtain rfl := List.mem_singleton.1 either
      exact steady'.readEach_until names stopped
  · intro cancelAt name count
    rw [readMany_eq_readEach, readMany_eq_readEach]
    exact (agree _).1

/-- Three lines with carriage returns, the second of them empty and the third without its
newline. -/
theorem written_lines_read_back_unended :
    (∀ t ∈ (["uno", "", "dos"] : List Text), t.IsLine) ∧
    (["uno", "", "dos"] : List Text).getLast? ≠ some Text.empty ∧
    (∀ (cancelAt : Option Nat) (name : Text) (count : Nat),
      readMany cancelAt name 0 count (.stream (Text.bytes "uno\r\n\r\ndos\r") false) =
        readMany cancelAt name 0 count (.lines ["uno", "", "dos"])) ∧
    readMany (some 5) "x" 0 7 (.lines ["uno", "", "dos"]) =
      [.ok "uno", .ok "", .ok "dos", .error .noInput, .error .noInput, .error .canceled,
        .error .canceled] := by
  have plain : ∀ t ∈ (["uno", "", "dos"] : List Text), t.IsLine := by decide
  have last : (["uno", "", "dos"] : List Text).getLast? ≠ some Text.empty := by decide
  exact ⟨plain, last, (written_lines_read_back plain (.inr rfl) (.inr ⟨last, by decide⟩)).2.2,
    by rfl⟩

end Input

end Pseudocode

import Pseudocode.Proofs.Diagnostic.Excerpt
import Pseudocode.Proofs.Llvm.Origin
import Pseudocode.Proofs.Run.Origin
import Pseudocode.Proofs.Token.Places

/-!
# Where a diagnostic points

Whatever is wrong with a source, and whoever says it, the scanner, the parser, a run of the program
or its translation: the diagnostic points at a character of the source that starts no token, or at
the start of a token. Such a place lies in a line of the source, in front of its end, and so the
excerpt shows this line with a caret under this column. Only a source without tokens has nothing
that the parser could point at.
-/

namespace Pseudocode

/-- The diagnostics that are made for a source: why it is no program, why a run of its program
fails, wherever it runs and whatever ran there before, and what has no form in numeric code. -/
inductive Text.Diagnosed (src : Text) : Diagnostic → Prop
  | compile {e : CompileError} (failed : Program.ofSource src = .error e) :
      Diagnosed src e.diagnostic
  | run {p : Program} {turns : Nat} {host : Host} {channels : Channels} {e : RuntimeError}
      (compiled : Program.ofSource src = .ok p)
      (failed : (p.runFor turns host channels).1.error? = some e) : Diagnosed src e.diagnostic
  | lower {p : Program} {e : UnsupportedError} (compiled : Program.ofSource src = .ok p)
      (refused : p.lower = .error e) : Diagnosed src e.diagnostic

/-- A diagnostic of a source points at a place: that of a character behind tiled ones that starts
neither a lexeme nor a gap, which may be the quote that opens a string without end, or that of a
token. -/
inductive Diagnostic.PointsAt (src : Text) (d : Diagnostic) : Location → Prop
  | stuck {done rest : List Char} {ts : List Token} {cause : LexCause} (stage : d.stage = .lexical)
      (summary : d.summary = cause.message) (split : src.chars = done ++ rest)
      (tiled : Tiled done ts rest) (stuck : Stuck cause rest) : PointsAt src d (.behind done)
  | token {ts : List Token} {t : Token} {l : Location} (stage : d.stage ≠ .lexical)
      (scanned : scan src = .ok ts) (mem : t ∈ ts) (place : t.loc = some l) : PointsAt src d l

/-- What a diagnostic points at is a character of the source that is no line break. -/
theorem Diagnostic.PointsAt.hasPlace {src : Text} {d : Diagnostic} {l : Location}
    (points : d.PointsAt src l) : src.HasPlace l := by
  cases points with
  | @stuck done rest ts cause _ _ split _ stuck =>
    obtain ⟨c, more, rfl, other⟩ := stuck.exists_head
    exact ⟨done, c, more, split, other, rfl⟩
  | token _ scanned mem place =>
    obtain ⟨l', place', there⟩ := exists_hasPlace_of_scan scanned mem
    rw [place, Option.some.injEq] at place'
    rwa [place']

namespace Text.Diagnosed

variable {src : Text} {d : Diagnostic}

/-- Where the scanner fails nobody else has anything to say. -/
theorem eq_of_scan_error {e : LexError} (failed : scan src = .error e)
    (diagnosed : src.Diagnosed d) : d = e.diagnostic := by
  have none : Program.ofSource src = .error (.lex e) := by rw [Program.ofSource, failed]
  cases diagnosed with
  | compile failed =>
    rw [none] at failed
    cases failed
    rfl
  | run compiled | lower compiled =>
    rw [none] at compiled
    cases compiled

/-- What is said of a source that was scanned has the place of a token, if there are any. -/
theorem place_of_scan {ts : List Token} (scanned : scan src = .ok ts)
    (diagnosed : src.Diagnosed d) : d.stage ≠ .lexical ∧
      ((∃ t ∈ ts, t.loc = d.loc) ∨ ts = [] ∧ d.stage = .parse ∧ d.loc = none) := by
  have placed {p : Program} (compiled : Program.ofSource src = .ok p) :
      ∀ s ∈ p.statements, s.IsPlaced fun loc => ∃ t ∈ ts, t.loc = loc := by
    obtain ⟨ts', scanned', all⟩ := Program.exists_isPlaced_of_ofSource compiled
    rw [scanned, Except.ok.injEq] at scanned'
    exact all _ fun t mem => ⟨t, scanned' ▸ mem, rfl⟩
  cases diagnosed with
  | compile failed =>
    rw [Program.ofSource, scanned] at failed
    obtain ⟨e, refused, rfl⟩ := Except.mapError_eq_error.1 failed
    refine ⟨(fun same => by cases same), ?_⟩
    rcases List.eq_nil_or_concat ts with rfl | ⟨first, last, rfl⟩
    · have none := Program.place_of_ofTokens (P := (· = none)) (List.forall_mem_nil _) rfl refused
      exact .inr ⟨rfl, rfl, none⟩
    · refine .inl (Program.place_of_ofTokens (P := fun loc => ∃ t ∈ first.concat last, t.loc = loc)
        (fun t mem => ⟨t, mem, rfl⟩) ⟨last, by simp, by simp [Token.ending]⟩ refused)
  | run compiled failed =>
    exact ⟨(fun same => by cases same), .inl (Program.place_of_error? (placed compiled) failed)⟩
  | lower compiled refused =>
    exact ⟨(fun same => by cases same), .inl (Program.place_of_lower (placed compiled) refused)⟩

/-- A diagnostic without a place is one of the parser, of a source without tokens. -/
theorem loc_eq_none_iff (diagnosed : src.Diagnosed d) :
    d.loc = none ↔ d.stage = .parse ∧ scan src = .ok [] := by
  cases scanned : scan src with
  | error e =>
    rw [diagnosed.eq_of_scan_error scanned]
    constructor
    · intro none
      cases none
    · rintro ⟨-, same⟩
      cases same
  | ok ts =>
    obtain ⟨-, ⟨t, mem, place⟩ | ⟨rfl, parsed, none⟩⟩ := diagnosed.place_of_scan scanned
    · obtain ⟨l, placed, -⟩ := exists_hasPlace_of_scan scanned mem
      rw [← place, placed]
      constructor
      · intro none
        cases none
      · rintro ⟨-, same⟩
        cases same
        cases mem
    · exact ⟨fun _ => ⟨parsed, rfl⟩, fun _ => none⟩

/-- A diagnostic with a place points at something. -/
theorem pointsAt (diagnosed : src.Diagnosed d) {l : Location} (place : d.loc = some l) :
    d.PointsAt src l := by
  cases scanned : scan src with
  | error e =>
    obtain rfl := diagnosed.eq_of_scan_error scanned
    obtain ⟨done, ts, rest, split, tiled, behind, stuck⟩ := scan_eq_error_iff.1 scanned
    cases place
    rw [behind]
    exact .stuck rfl rfl split tiled stuck
  | ok ts =>
    obtain ⟨later, ⟨t, mem, same⟩ | ⟨-, -, none⟩⟩ := diagnosed.place_of_scan scanned
    · exact .token later scanned mem (same.trans place)
    · rw [none] at place
      cases place

end Text.Diagnosed

/-- **Every diagnostic points into the source.** It has no place only if it is one of the parser, of
a source without tokens. Otherwise it points at a character that the scanner stops at or at a token,
which is in a line of the source and in front of the end of it, and the excerpt shows this line and
this column. And an excerpt for any place at all has a line to show, the nearest there is. -/
theorem Text.diagnostics_point_into (src : Text) :
    (∀ d, src.Diagnosed d →
      (d.loc = none ↔ d.stage = .parse ∧ scan src = .ok []) ∧
      ∀ l, d.loc = some l → d.PointsAt src l ∧
        ∃ (n k : Nat) (line : Text), l = ⟨n + 1, k + 1⟩ ∧ src.lines[n]? = some line ∧
          k < line.length ∧ Excerpt.Shows src d.stage.heading d.summary (n + 1) (k + 1) (d.format src)) ∧
    ∀ (heading : Text) (l : Location) (summary : Text), ∃ line column : Nat,
      (line : Int) = max 1 (min l.line src.lines.length) ∧ (column : Int) = max 1 l.column ∧
        Excerpt.Shows src heading summary line column (Excerpt.render src heading l summary) := by
  refine ⟨fun d diagnosed => ⟨diagnosed.loc_eq_none_iff, fun l place => ?_⟩,
    Excerpt.render_shows src⟩
  have points := diagnosed.pointsAt place
  obtain ⟨n, k, line, rfl, there, inside⟩ := points.hasPlace.exists_line
  refine ⟨points, n, k, line, rfl, there, inside, ?_⟩
  rw [Diagnostic.format, place]
  exact Excerpt.render_shows_of_line (List.getElem?_eq_some_iff.1 there).1 _ k _

/-- A variable that is read behind a tab, and that nothing has bound. -/
def Text.unbound : Text := "algoritmo p\n\tescribir x\nfinalgoritmo"

/-- The run of the program points at the variable, and the caret stands behind the tab. -/
theorem Text.diagnostics_point_into_unbound :
    ∃ d, unbound.Diagnosed d ∧ d.stage = .runtime ∧ d.loc = some ⟨2, 11⟩ ∧
      d.PointsAt unbound ⟨2, 11⟩ ∧
      Excerpt.Shows unbound "RUNTIME ERROR" d.summary 2 11 (d.format unbound) := by
  have checked : (Program.ofSource unbound).toOption.any (fun p => decide
      ((p.runFor 1 {} (.initial {} (.lines []))).1.error?.map RuntimeError.loc =
        some (some ⟨2, 11⟩))) = true := by
    decide +kernel
  cases compiled : Program.ofSource unbound with
  | error =>
    rw [compiled] at checked
    cases checked
  | ok p =>
    rw [compiled] at checked
    obtain ⟨e, failed, place⟩ := Option.map_eq_some_iff.1 (of_decide_eq_true checked)
    have diagnosed : unbound.Diagnosed e.diagnostic := .run compiled failed
    obtain ⟨points, n, k, line, same, -, -, shows⟩ :=
      ((diagnostics_point_into unbound).1 _ diagnosed).2 _ place
    obtain ⟨rfl, rfl⟩ : n = 1 ∧ k = 10 := by
      rw [Location.mk.injEq] at same
      omega
    exact ⟨e.diagnostic, diagnosed, rfl, place, points, shows⟩

end Pseudocode

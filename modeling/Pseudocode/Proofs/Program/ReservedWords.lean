import Pseudocode.Proofs.Program.Recognition
import Pseudocode.Proofs.Text.Casing
import Pseudocode.Proofs.Text.Characters
import Pseudocode.Proofs.Token.Lines

/-!
# One reserved word for each token

The scanner calls a word reserved by its lower-case form, and so does the parser where a statement
starts. Everywhere else the parser compares up to case orbits. For all words of a source but those
with a dotted capital `İ` the two ways find the same reserved word, and the case of the letters
plays no part. A word with that letter is reserved, but no comparison up to case orbits finds it: it
can start a statement, and the parser refuses it in every other place.

What a state does with a reserved word has one form throughout, `TakesWords`: it asks for certain
words, and it may also be at the start of a statement. Both results about the parser follow from
that form.
-/

namespace Pseudocode

open Except (SameUpTo)

namespace Keyword

theorem chars_text (k : Keyword) : k.text.chars = k.spelling.toList := by
  cases k <;> decide

theorem isSmall_spelling (k : Keyword) : ∀ c ∈ k.spelling.toList, IsSmall c := by
  have each : (k.spelling.toList.all fun c => decide (IsSmall c)) = true := by
    cases k <;> decide
  exact fun c hc => of_decide_eq_true (List.all_eq_true.1 each c hc)

theorem dotted_not_mem_fold (k : Keyword) : 'İ' ∉ k.text.chars.map foldChar := by
  cases k <;> decide +kernel

theorem isEmpty_text (k : Keyword) : k.text.isEmpty = false := by
  cases k <;> decide

end Keyword

namespace Token

variable {t : Token} {k : Keyword}

theorem matchesValue_text (t : Token) (k : Keyword) :
    t.matchesValue .keyword k.text = t.isKeyword k := by
  rw [matchesValue, isKeyword, k.isEmpty_text, Bool.false_or]

/-- The characters of a word in lower case are those of the reserved word that it is. -/
theorem map_lowerChar_chars {word : Text} (lower : k.text = word.lower) :
    word.chars.map lowerChar = k.spelling.toList :=
  Text.ofChars_injective lower.symm

/-- A token that is a reserved word matches that word and no other, but if it has a dotted capital
it matches none. -/
theorem isKeyword_iff (kind : t.kind = .keyword) (lower : k.text = t.value.lower) (k' : Keyword) :
    t.isKeyword k' = true ↔ k' = k ∧ 'İ' ∉ t.value.chars := by
  have folds (undotted : 'İ' ∉ t.value.chars) :
      t.value.chars.map foldChar = k.text.chars.map foldChar := by
    rw [k.chars_text]
    exact map_foldChar_of_map_lowerChar k.isSmall_spelling (map_lowerChar_chars lower) undotted
  rw [isKeyword, kind, beq_self_eq_true, Bool.true_and, Text.sameFold, beq_iff_eq]
  constructor
  · intro same
    have undotted : 'İ' ∉ t.value.chars := by
      intro dotted
      have folded := List.mem_map_of_mem (f := foldChar) dotted
      rw [foldChar_dotted, same] at folded
      exact k'.dotted_not_mem_fold folded
    have words : k'.text.sameFold k.text = true := by
      rw [Text.sameFold, beq_iff_eq, ← same, folds undotted]
    rw [k'.isAscii_text.sameFold_iff k.isAscii_text, k'.asciiLower_text, k.asciiLower_text] at words
    exact ⟨Keyword.text_inj words, undotted⟩
  · rintro ⟨rfl, undotted⟩
    exact folds undotted

/-- A reserved word in lower case. Other tokens stay as they are. -/
def lowered (t : Token) : Token :=
  if t.kind = .keyword then { t with value := t.value.lower } else t

theorem lowered_of_keyword (kind : t.kind = .keyword) :
    t.lowered = { t with value := t.value.lower } := if_pos kind

theorem lowered_of_not_keyword (kind : t.kind ≠ .keyword) : t.lowered = t := if_neg kind

@[simp] theorem lowered_loc (t : Token) : t.lowered.loc = t.loc := by
  rw [lowered]
  split
  · rfl
  · rfl

theorem spells_lowered (kind : t.kind = .keyword) (lower : k.text = t.value.lower) :
    t.lowered.Spells k := by
  rw [lowered_of_keyword kind]
  exact ⟨kind, by rw [← lower, k.asciiLower_text]⟩

end Token

namespace Scanner

-- Of the tokens that the scanner makes, only words can be reserved.
theorem isReserved_of_extend? {c : Char} {m m' : Mode} {t : Token}
    (h : m.extend? c = some (m', some t)) (kind : t.kind = .keyword) :
    isReserved t.value = true := by
  cases m with
  | string | less | greater =>
    simp only [Mode.extend?] at h
    grind [token]
  | _ =>
    simp only [Mode.extend?] at h
    grind

theorem isReserved_of_close {m : Mode} {t : Token} (h : m.close = .ok (some t))
    (kind : t.kind = .keyword) : isReserved t.value = true := by
  cases m with
  | word =>
    cases h
    simp only [wordToken, wordKind] at kind ⊢
    grind
  | between | comment | string => cases h
  | number | slash | less | greater =>
    cases h
    cases kind

theorem isReserved_of_start {here : Location} {c : Char} {m : Mode} {t : Token}
    (h : start here c = .ok (m, some t)) (kind : t.kind = .keyword) :
    isReserved t.value = true := by
  have mark {kind : Token.Kind} (h : punctuation? c = some kind) : kind ≠ .keyword := by
    rw [punctuation?.eq_def] at h
    split at h
    all_goals
      cases h
    all_goals
      intro same
      cases same
  grind [start, token]

end Scanner

/-- Every word that the scanner calls reserved is one of the reserved words. -/
theorem exists_keyword_of_scan {src : Text} {ts : List Token} (h : scan src = .ok ts) {t : Token}
    (mem : t ∈ ts) (kind : t.kind = .keyword) : ∃ k : Keyword, k.text = t.value.lower := by
  have makes : Scanner.Makes fun t => t.kind = .keyword → isReserved t.value = true :=
    ⟨Scanner.isReserved_of_extend?, Scanner.isReserved_of_close, Scanner.isReserved_of_start⟩
  obtain ⟨k, found⟩ := Option.isSome_iff_exists.1 (makes.scan h t mem kind)
  have same := List.find?_some found
  exact ⟨k, eq_of_beq same⟩

namespace Parser

/-- The reserved words that statements start with. -/
def openers : List Keyword :=
  [.escribir, .leer, .si, .segun, .mientras, .repetir, .para, .dimension]

/-- What comes of a reserved word where some are asked for, and where a statement may start. -/
def taken (asked : List (Keyword × State)) (block : Option Blocks) (t : Token) : Option State :=
  match asked.find? fun w => t.isKeyword w.1 with
  | some w => some w.2
  | none => block.bind fun b => (statementStep b t).toOption

/-- A step that does with reserved words nothing but this. No word that it asks for starts a
statement. -/
def TakesWords (step : Token → Except ParseError State) : Prop :=
  ∃ asked block, (∀ w ∈ asked, w.1 ∉ openers) ∧
    ∀ t, t.kind = .keyword → (step t).toOption = taken asked block t

namespace TakesWords

variable {f g : Token → Except ParseError State}

@[simp] theorem toOption_expected (t : Token) (what : Expectation) :
    (Parser.expected t what : Except ParseError State).toOption = none := rfl

@[simp] theorem toOption_error (e : ParseError) :
    (.error e : Except ParseError State).toOption = none := rfl

theorem refuses (h : ∀ t, t.kind = .keyword → (f t).toOption = none) : TakesWords f :=
  ⟨[], none, List.forall_mem_nil _, h⟩

theorem statementStep (b : Blocks) : TakesWords (statementStep b) :=
  ⟨[], some b, List.forall_mem_nil _, fun _ _ => rfl⟩

theorem congr (h : TakesWords g) (same : ∀ t, t.kind = .keyword → f t = g t) : TakesWords f := by
  obtain ⟨asked, block, notOpeners, takes⟩ := h
  exact ⟨asked, block, notOpeners, fun t kind => by rw [same t kind, takes t kind]⟩

/-- One more word is asked for, before all others. -/
theorem orElse (h : TakesWords g) {k : Keyword} (notOpener : k ∉ openers) (next : State) :
    TakesWords fun t => if t.isKeyword k then .ok next else g t := by
  obtain ⟨asked, block, notOpeners, takes⟩ := h
  refine ⟨(k, next) :: asked, block, List.forall_mem_cons.2 ⟨notOpener, notOpeners⟩, ?_⟩
  intro t kind
  cases word : t.isKeyword k with
  | true => simp [taken, word]; rfl
  | false => simp [taken, word, takes t kind]

theorem expected (what : Expectation) : TakesWords fun t => expected t what :=
  refuses fun _ _ => rfl

theorem requireKeyword {k : Keyword} (notOpener : k ∉ openers) (next : State) :
    TakesWords fun t => requireKeyword t k next :=
  (expected (.keyword k)).orElse notOpener next

theorem statementOr (b : Blocks) (closing : Keyword) : TakesWords (statementOr b closing) :=
  (statementStep b).congr fun t kind => by simp [Parser.statementOr, kind]

theorem selectionStep (b : Blocks) (s : Selection) (h : TakesWords f) :
    TakesWords fun t => selectionStep b s t (f t) :=
  ((h.orElse (by decide) _).orElse (by decide) _).orElse (by decide) _

theorem blockStep (b : Blocks) : TakesWords (blockStep b) := by
  obtain ⟨program, done, outer⟩ := b
  cases outer with
  | nil => exact (statementOr _ _).orElse (by decide) _
  | cons head outer =>
    obtain ⟨before, enclosing⟩ := head
    cases enclosing with
    | yes => exact ((statementOr _ _).orElse (by decide) _).orElse (by decide) _
    | caseBody => exact (statementOr _ _).selectionStep _ _
    | no | otherwise | whileBody | repeatBody | forBody =>
      exact (statementOr _ _).orElse (by decide) _

/-- Where a name, a number or a mark must stand, a reserved word is refused. -/
theorem headerStep (b : Blocks) (h : Header) : TakesWords (headerStep b h) := by
  cases h with
  | readNext loc done =>
    exact (blockStep (b.add (.read loc done))).congr fun t kind => by
      simp [Parser.headerStep, kind]
  | selectCase s => exact (expected _).selectionStep b s
  | selectHacer | selectOtro | selectModo | repeatQue | forHasta | forPaso | forHacer =>
    exact requireKeyword (by decide) _
  | forCon => exact (requireKeyword (by decide) _).orElse (by decide) _
  | readTarget | forVar | dimensionName =>
    exact refuses fun t kind => by simp [Parser.headerStep, requireName, kind]
  | selectSubject | forArrow | dimensionBracket =>
    exact refuses fun t kind => by simp [Parser.headerStep, requireKind, require, kind]
  | selectColon =>
    exact refuses fun t kind => by
      simp [Parser.headerStep, require, Token.isOperator, kind]
  | forFirst | forLast | forStep =>
    exact refuses fun t kind => by
      simp [Parser.headerStep, requireNumber, Token.isOperator, kind]
  | assignTarget | assignArrow =>
    exact refuses fun t kind => by simp [Parser.headerStep, kind]

theorem operandStep (b : Blocks) (o : Opening) (brackets : Brackets) (gap : Gap) :
    TakesWords (operandStep b o brackets gap) :=
  refuses fun t kind => by simp [Parser.operandStep, Token.isOperator, kind]

theorem openingStep (b : Blocks) (o : Opening) (e : Expr) : TakesWords (openingStep b o e) := by
  cases o with
  | print loc done =>
    exact (blockStep (b.add (.print loc (done ++ [e])))).congr fun t kind => by
      simp [Parser.openingStep, kind]
  | branch | whileLoop => exact requireKeyword (by decide) _
  | repeatLoop | assign | assignElement => exact blockStep _
  | caseLabel =>
    exact refuses fun t kind => by
      simp [Parser.openingStep, require, Token.isOperator, kind]
  | dimension | elementIndex =>
    exact refuses fun t kind => by simp [Parser.openingStep, requireKind, require, kind]

theorem valueStep (b : Blocks) (o : Opening) (brackets : Brackets) (e : Expr) :
    TakesWords (valueStep b o brackets e) := by
  cases brackets with
  | nil => exact (openingStep b o e).congr fun t kind => by simp [Parser.valueStep, kind]
  | cons first outer =>
    obtain ⟨gap, bracket⟩ := first
    cases bracket with
    | group | index | argument =>
      exact refuses fun t kind => by simp [Parser.valueStep, requireKind, require, kind]

/-- Every state takes reserved words in this way, but for one behind the end of the tokens. -/
theorem step {s : State} (notClosed : ∀ p, s ≠ .closed p) : TakesWords (step s) := by
  cases s with
  | start => exact requireKeyword (by decide) _
  | title | ended =>
    exact refuses fun t kind => by simp [Parser.step, require, kind]
  | block b => exact blockStep b
  | header b h => exact headerStep b h
  | operand b o brackets gap => exact operandStep b o brackets gap
  | named b o brackets gap loc name =>
    exact (valueStep b o brackets (gap.fill (.name loc name))).congr fun t kind => by
      simp [Parser.step, kind]
  | arguments b o brackets gap loc function =>
    exact (operandStep b o ((gap, .argument loc function []) :: brackets) .start).congr
      fun t kind => by simp [Parser.step, kind]
  | value b o brackets e => exact valueStep b o brackets e
  | closed p => exact absurd rfl (notClosed p)

/-- A word that nothing asks for and that starts no statement is refused. -/
theorem toOption_eq_none (h : TakesWords f) {t : Token} (kind : t.kind = .keyword)
    (unasked : ∀ k, t.isKeyword k = false)
    (notOpener : ∀ k ∈ openers, Keyword.ofText? t.value ≠ some k) : (f t).toOption = none := by
  obtain ⟨asked, block, -, takes⟩ := h
  have none : asked.find? (fun w => t.isKeyword w.1) = Option.none :=
    List.find?_eq_none.2 fun w _ => by simp [unasked]
  have refused (b : Blocks) : (Parser.statementStep b t).toOption = Option.none := by
    simp only [Parser.statementStep, kind]
    cases word : Keyword.ofText? t.value with
    | none => rfl
    | some k =>
      cases k with
      | escribir | leer | si | segun | mientras | repetir | para | dimension =>
        exact absurd word (notOpener _ (by decide))
      | _ => rfl
  rw [takes t kind, taken, none]
  cases block with
  | none => rfl
  | some b => exact refused b

end TakesWords

/-- Two tokens that the parser cannot tell apart: they are the same reserved word by their
lower-case forms, and the same up to case orbits wherever a word is asked for. -/
structure ReadAlike (t t' : Token) : Prop where
  kind : t.kind = .keyword
  kind' : t'.kind = .keyword
  loc : t.loc = t'.loc
  word : Keyword.ofText? t.value = Keyword.ofText? t'.value
  asked : ∀ k, k ∉ openers → t.isKeyword k = t'.isKeyword k

namespace ReadAlike

variable {t t' : Token}

theorem taken_eq (alike : ReadAlike t t') {asked : List (Keyword × State)}
    (notOpeners : ∀ w ∈ asked, w.1 ∉ openers) (block : Option Blocks) :
    taken asked block t = taken asked block t' := by
  have found : asked.find? (fun w => t.isKeyword w.1) =
      asked.find? fun w => t'.isKeyword w.1 := by
    induction asked with
    | nil => rfl
    | cons w asked ih =>
      obtain ⟨first, later⟩ := List.forall_mem_cons.1 notOpeners
      rw [List.find?_cons, List.find?_cons, alike.asked w.1 first, ih later]
  have started (b : Blocks) :
      (statementStep b t).toOption = (statementStep b t').toOption := by
    simp only [statementStep, alike.kind, alike.kind', alike.loc, alike.word]
    split
    all_goals rfl
  rw [taken, taken, found]
  simp only [started]

theorem sameUpTo_step (alike : ReadAlike t t') (s : State) :
    SameUpTo id (step s t) (step s t') := by
  by_cases closed : ∃ p, s = .closed p
  · obtain ⟨p, rfl⟩ := closed
    rfl
  · obtain ⟨asked, block, notOpeners, takes⟩ := TakesWords.step fun p h => closed ⟨p, h⟩
    rw [SameUpTo, takes t alike.kind, takes t' alike.kind', alike.taken_eq notOpeners]

end ReadAlike

end Parser

namespace Keyword

/-- A word is the reserved word that its lower-case form spells. -/
theorem ofText?_eq_some {k : Keyword} {word : Text} (lower : k.text = word.lower) :
    ofText? word = some k := by
  have spelt : Token.Spells ⟨.keyword, k.text, none⟩ k := ⟨rfl, k.asciiLower_text⟩
  have found : ofText? k.text = some k := spelt.ofText?
  rw [ofText?, k.isAscii_text.lower_eq, k.asciiLower_text] at found
  rw [ofText?, ← lower]
  exact found

end Keyword

namespace Token

variable {t : Token} {k : Keyword}

/-- A reserved word with a dotted capital is asked for nowhere. -/
theorem isKeyword_of_dotted (kind : t.kind = .keyword) (lower : k.text = t.value.lower)
    (dotted : 'İ' ∈ t.value.chars) (k' : Keyword) : t.isKeyword k' = false := by
  cases read : t.isKeyword k' with
  | false => rfl
  | true => exact absurd dotted ((isKeyword_iff kind lower k').1 read).2

/-- The parser cannot tell a reserved word from its lower-case form, unless the word has a dotted
capital and starts no statement. -/
theorem readAlike_lowered (kind : t.kind = .keyword) (lower : k.text = t.value.lower)
    (readable : 'İ' ∈ t.value.chars → k ∈ Parser.openers) : Parser.ReadAlike t t.lowered where
  kind := kind
  kind' := (spells_lowered kind lower).1
  loc := t.lowered_loc.symm
  word := by rw [Keyword.ofText?_eq_some lower, (spells_lowered kind lower).ofText?]
  asked k' notOpener := by
    rw [(spells_lowered kind lower).isKeyword k', Bool.eq_iff_iff, isKeyword_iff kind lower k',
      decide_eq_true_iff]
    constructor
    · exact fun ⟨same, _⟩ => same.symm
    · rintro rfl
      exact ⟨rfl, fun dotted => notOpener (readable dotted)⟩

end Token

section Programs

variable {ts : List Token}

theorem Token.ending_lowered (ts : List Token) : ending (ts.map lowered) = ending ts := by
  rw [ending, ending, List.getLast?_map]
  cases ts.getLast? with
  | none => rfl
  | some t => simp

namespace Parser

theorem sameUpTo_step_lowered {t : Token} (alike : t.kind = .keyword → ReadAlike t t.lowered)
    (s : State) : SameUpTo id (step s t) (step s t.lowered) := by
  by_cases kind : t.kind = .keyword
  · exact (alike kind).sameUpTo_step s
  · rw [Token.lowered_of_not_keyword kind]
    rfl

theorem sameUpTo_run_lowered (alike : ∀ t ∈ ts, t.kind = .keyword → ReadAlike t t.lowered)
    (s : State) : SameUpTo id (ts.foldlM step s) ((ts.map Token.lowered).foldlM step s) := by
  induction ts generalizing s with
  | nil => rfl
  | cons t ts ih =>
    obtain ⟨first, later⟩ := List.forall_mem_cons.1 alike
    rw [List.map_cons, List.foldlM_cons, List.foldlM_cons]
    refine (sameUpTo_step_lowered first s).bind fun m m' same => ?_
    obtain rfl : m = m' := same
    exact ih later m

end Parser

namespace Program

/-- Lower-casing changes nothing in tokens that the parser cannot tell from their lower-case
forms. -/
theorem sameUpTo_ofTokens_lowered
    (alike : ∀ t ∈ ts, t.kind = .keyword → Parser.ReadAlike t t.lowered) :
    SameUpTo id (ofTokens ts) (ofTokens (ts.map Token.lowered)) := by
  rw [ofTokens, ofTokens, Token.ending_lowered]
  refine (Parser.sameUpTo_run_lowered alike .start).bind fun s s' same => ?_
  obtain rfl : s = s' := same
  rfl

/-- The tokens of a program hold no reserved word with a dotted capital but to start a
statement. -/
theorem opener_of_dotted {p : Program} (notEnd : ∀ t ∈ ts, t.kind ≠ .endOfInput)
    (parsed : ofTokens ts = .ok p) {t : Token} (mem : t ∈ ts) (kind : t.kind = .keyword)
    {k : Keyword} (lower : k.text = t.value.lower) (dotted : 'İ' ∈ t.value.chars) :
    k ∈ Parser.openers := by
  obtain ⟨last, run, -⟩ := Except.bind_eq_ok.1 parsed
  obtain ⟨before, after, rfl⟩ := List.append_of_mem mem
  obtain ⟨s, lead, rest⟩ := Parser.Leads.append_inv run
  obtain ⟨s', taken, -⟩ := rest.cons_inv
  have notClosed : ∀ q, s ≠ .closed q := by
    rintro q rfl
    have from_ : Parser.StateFrom (fun _ _ => True) (.closed q) ([] ++ before) :=
      Parser.StateFrom.run .start (fun t ht => notEnd t (List.mem_append_left _ ht))
        (fun _ _ _ _ => trivial) lead
    cases from_
  by_cases opener : k ∈ Parser.openers
  · exact opener
  · have refused := (Parser.TakesWords.step notClosed).toOption_eq_none kind
      (Token.isKeyword_of_dotted kind lower dotted) fun k' mem' word => by
        rw [Keyword.ofText?_eq_some lower] at word
        exact opener (Option.some.inj word ▸ mem')
    rw [taken] at refused
    cases refused

/-- **Which words the parser takes for reserved words.** A token that the scanner calls a reserved
word matches the word of its lower-case form and no other, unless it has a dotted capital: then it
matches none. And with its reserved words in lower case a list of tokens is the same program, or
none, except that a reserved word with a dotted capital is refused where no statement starts. -/
theorem reservedWords_of_scan {src : Text} {ts : List Token} (scanned : scan src = .ok ts) :
    (∀ t ∈ ts, t.kind = .keyword → ∃ k : Keyword, k.text = t.value.lower ∧
      ∀ k' : Keyword, t.matchesValue .keyword k'.text = true ↔ k' = k ∧ 'İ' ∉ t.value.chars) ∧
    ∀ p, ofTokens ts = .ok p ↔
      ofTokens (ts.map Token.lowered) = .ok p ∧
        ∀ t ∈ ts, t.kind = .keyword → 'İ' ∈ t.value.chars →
          ∃ k ∈ Parser.openers, k.text = t.value.lower := by
  have lowers (t : Token) (mem : t ∈ ts) (kind : t.kind = .keyword) :
      ∃ k : Keyword, k.text = t.value.lower := exists_keyword_of_scan scanned mem kind
  have same (readable : ∀ t ∈ ts, t.kind = .keyword → 'İ' ∈ t.value.chars →
      ∃ k ∈ Parser.openers, k.text = t.value.lower) :
      SameUpTo id (ofTokens ts) (ofTokens (ts.map Token.lowered)) := by
    refine sameUpTo_ofTokens_lowered fun t mem kind => ?_
    obtain ⟨k, lower⟩ := lowers t mem kind
    refine Token.readAlike_lowered kind lower fun dotted => ?_
    obtain ⟨k', opener, lower'⟩ := readable t mem kind dotted
    rwa [Keyword.text_inj (lower.trans lower'.symm)]
  constructor
  · intro t mem kind
    obtain ⟨k, lower⟩ := lowers t mem kind
    refine ⟨k, lower, fun k' => ?_⟩
    rw [Token.matchesValue_text, Token.isKeyword_iff kind lower]
  · intro p
    constructor
    · intro parsed
      have readable (t : Token) (mem : t ∈ ts) (kind : t.kind = .keyword)
          (dotted : 'İ' ∈ t.value.chars) : ∃ k ∈ Parser.openers, k.text = t.value.lower := by
        obtain ⟨k, lower⟩ := lowers t mem kind
        exact ⟨k, opener_of_dotted (kinds_of_scan scanned) parsed mem kind lower dotted, lower⟩
      obtain ⟨p', parsed', rfl⟩ := (same readable).exists_ok parsed
      exact ⟨parsed', readable⟩
    · rintro ⟨parsed, readable⟩
      obtain ⟨p', parsed', rfl⟩ := (same readable).symm.exists_ok parsed
      exact parsed'

/-- A source in capital letters, where the word that starts the statement has a dotted one. -/
def dottedSource : Text := "ALGORITMO a\nESCRİBİR \"x\"\nFINALGORITMO\n"

/-- The tokens of this source. -/
def dottedTokens : List Token :=
  [⟨.keyword, "ALGORITMO", some ⟨1, 1⟩⟩, ⟨.identifier, "a", some ⟨1, 11⟩⟩,
   ⟨.keyword, "ESCRİBİR", some ⟨2, 1⟩⟩, ⟨.string, "x", some ⟨2, 10⟩⟩,
   ⟨.keyword, "FINALGORITMO", some ⟨3, 1⟩⟩]

/-- The dotted word matches no reserved word, and the tokens are a program all the same. -/
theorem reservedWords_of_scan_dottedSource :
    scan dottedSource = .ok dottedTokens ∧
    (∃ k : Keyword, k.text = Text.lower "ESCRİBİR" ∧ ∀ k' : Keyword,
      Token.matchesValue ⟨.keyword, "ESCRİBİR", some ⟨2, 1⟩⟩ .keyword k'.text = true ↔
        k' = k ∧ 'İ' ∉ Text.chars "ESCRİBİR") ∧
    ofTokens dottedTokens = .ok ⟨"a", [.print (some ⟨2, 1⟩) [.text (some ⟨2, 10⟩) "x"]]⟩ := by
  have scanned : scan dottedSource = .ok dottedTokens :=
    Except.toOption_eq_some.1 (by decide +kernel)
  have mem : ⟨.keyword, "ESCRİBİR", some ⟨2, 1⟩⟩ ∈ dottedTokens := by decide
  obtain ⟨words, parses⟩ := reservedWords_of_scan scanned
  refine ⟨scanned, words _ mem rfl, (parses _).2 ⟨by rfl, ?_⟩⟩
  decide +kernel

/-- In another place the parser refuses such a word: these tokens are no program, and with their
reserved words in lower case they are one. -/
theorem refused_of_dotted :
    let ts : List Token :=
      [⟨.keyword, "Algorİtmo", some ⟨1, 1⟩⟩, ⟨.identifier, "a", some ⟨1, 11⟩⟩,
       ⟨.keyword, "FinAlgoritmo", some ⟨2, 1⟩⟩]
    scan "Algorİtmo a\nFinAlgoritmo\n" = .ok ts ∧
    (∀ k ∈ Keyword.all,
      Token.matchesValue ⟨.keyword, "Algorİtmo", some ⟨1, 1⟩⟩ .keyword k.text = false) ∧
    (ofTokens ts).toOption.isNone ∧ ofTokens (ts.map Token.lowered) = .ok ⟨"a", []⟩ := by
  intro ts
  exact ⟨Except.toOption_eq_some.1 (by decide +kernel), by decide +kernel, by decide +kernel, rfl⟩

end Program

end Programs

end Pseudocode

import Pseudocode.Proofs.Token.Lines

/-!
# Tokens tile a source

What a source is made of can be said without a scanner: lexemes, with blanks and comments between
them, and nothing else. A lexeme spells its token, which stands where the lexeme starts, and no
lexeme stops before a character that would belong to it. The scanner finds this division of a
source, and if a source has none it stops at the first character that cannot be divided off.

So there are two parts to the proof. The scanner passes each piece as the division says, whatever
follows the piece; and behind every divided part comes the end, a further piece, or a place where
nothing fits.
-/

namespace Pseudocode

namespace Location

/-- The place behind some characters: as many lines down as they have line breaks, and as many
columns on as there are characters since the last one. -/
def behind (cs : List Char) : Location where
  line := 1 + cs.count '\n'
  column := 1 + (cs.reverse.takeWhile (· != '\n')).length

theorem behind_append_singleton (cs : List Char) (c : Char) :
    behind (cs ++ [c]) = (behind cs).advance c := by
  by_cases newline : c = '\n'
  · subst newline
    simp [behind, advance]
    omega
  · simp [behind, advance, newline]
    omega

theorem behind_append (cs ds : List Char) : behind (cs ++ ds) = ds.foldl advance (behind cs) := by
  induction ds generalizing cs with
  | nil => rw [List.append_nil, List.foldl_nil]
  | cons d ds ih => rw [List.append_cons, ih, behind_append_singleton, List.foldl_cons]

end Location

/-- A letter, and letters and digits of any script behind it. -/
def IsWord (cs : List Char) : Prop :=
  ∃ c rest, cs = c :: rest ∧ isLetter c = true ∧
    ∀ d ∈ rest, (isLetter d || isDecimalDigit d) = true

namespace Token

/-- The operators. The assignment arrow is not one of them. -/
def operators : List (List Char) :=
  [['+'], ['-'], ['*'], ['='], [':'], ['&'], ['|'],
   ['/'], ['<'], ['<', '='], ['<', '>'], ['>'], ['>', '=']]

/-- The punctuation marks and their kinds. -/
def marks : List (Char × Kind) :=
  [('(', .openParen), (')', .closeParen), ('[', .openBracket), (']', .closeBracket), (',', .comma)]

/-- The truth values in lower case. -/
def truthWords : List Text := ["verdadero", "falso"]

/-- What kind of token a lexeme prescribes, and what value. All characters of the lexeme are the
value, but for the quotation marks of a string. -/
inductive Spelt : Kind → (value lexeme : List Char) → Prop
  | number {digits : List Char} : digits ≠ [] → (∀ c ∈ digits, isDigit c = true) →
      Spelt .number digits digits
  | string {body : List Char} : '"' ∉ body → Spelt .string body ('"' :: (body ++ ['"']))
  | truth {word : List Char} : IsWord word → (Text.ofChars word).lower ∈ truthWords →
      Spelt .boolean word word
  | keyword {word : List Char} : IsWord word →
      (Text.ofChars word).lower ∈ Keyword.all.map Keyword.text → Spelt .keyword word word
  | identifier {word : List Char} : IsWord word → (Text.ofChars word).lower ∉ truthWords →
      (Text.ofChars word).lower ∉ Keyword.all.map Keyword.text → Spelt .identifier word word
  | assignment : Spelt .assignment ['<', '-'] ['<', '-']
  | operator {symbol : List Char} : symbol ∈ operators → Spelt .operator symbol symbol
  | mark {c : Char} {kind : Kind} : (c, kind) ∈ marks → Spelt kind [c] [c]

/-- Whether a character behind a lexeme would belong to it. -/
def Kind.Extends (kind : Kind) (lexeme : List Char) (c : Char) : Prop :=
  match kind with
  | .number => isDigit c = true
  | .boolean | .keyword | .identifier => (isLetter c || isDecimalDigit c) = true
  | .operator => lexeme = ['<'] ∧ c ∈ ['-', '=', '>'] ∨ lexeme = ['>'] ∧ c = '=' ∨
      lexeme = ['/'] ∧ c = '/'
  | _ => False

end Token

open Token (Spelt)

/-- The characters `done`, behind which comes `rest`, are lexemes of the tokens, and blanks and
comments between them. A comment runs to a line break or to the end of the source. -/
inductive Tiled : (done : List Char) → List Token → (rest : List Char) → Prop
  | start (rest : List Char) : Tiled [] [] rest
  | blank {done rest : List Char} {ts : List Token} {c : Char} :
      Tiled done ts (c :: rest) → isBlank c = true → Tiled (done ++ [c]) ts rest
  | comment {done body rest : List Char} {ts : List Token} :
      Tiled done ts ('/' :: '/' :: body ++ rest) → '\n' ∉ body → (∀ c ∈ rest.head?, c = '\n') →
      Tiled (done ++ '/' :: '/' :: body) ts rest
  | token {done value lexeme rest : List Char} {ts : List Token} {kind : Token.Kind} :
      Tiled done ts (lexeme ++ rest) → Spelt kind value lexeme →
      (∀ c ∈ rest.head?, ¬ kind.Extends lexeme c) →
      Tiled (done ++ lexeme) (ts ++ [⟨kind, Text.ofChars value, some (.behind done)⟩]) rest

/-- At the first of the characters neither a lexeme can start nor a gap. -/
inductive Stuck : LexCause → List Char → Prop
  | unterminated {body : List Char} : '"' ∉ body → Stuck .unterminatedString ('"' :: body)
  | unexpected {c : Char} {rest : List Char} : isBlank c = false →
      (∀ kind value lexeme, Spelt kind value lexeme → lexeme.head? ≠ some c) →
      Stuck (.unexpectedCharacter c) (c :: rest)

section Characters

variable {c : Char}

/-- The code points of the blanks. -/
def blankCodes : List Nat :=
  [9, 10, 11, 12, 13, 0x20, 0x85, 0xA0, 0x1680, 0x2000, 0x2001, 0x2002, 0x2003, 0x2004, 0x2005,
   0x2006, 0x2007, 0x2008, 0x2009, 0x200A, 0x2028, 0x2029, 0x202F, 0x205F, 0x3000]

theorem toNat_mem_blankCodes (blank : isBlank c = true) : c.toNat ∈ blankCodes := by
  simp only [isBlank, Bool.or_eq_true, Bool.and_eq_true, decide_eq_true_eq, beq_iff_eq] at blank
  simp only [blankCodes, List.mem_cons, List.not_mem_nil, or_false]
  omega

theorem toNat_mem_digitCodes (digit : isDigit c = true) : c.toNat ∈ List.range' 48 10 := by
  have range : 48 ≤ c.toNat ∧ c.toNat ≤ 57 := by
    simp only [isDigit, Bool.and_eq_true, decide_eq_true_eq] at digit
    exact digit
  rw [List.mem_range'_1]
  omega

private theorem of_codes {P : Char → Prop} {codes : List Nat} (h : ∀ n ∈ codes, P (Char.ofNat n))
    (mem : c.toNat ∈ codes) : P c := by
  have here := h _ mem
  rwa [Char.ofNat_toNat] at here

theorem isLetter_of_isBlank (blank : isBlank c = true) : isLetter c = false :=
  of_codes (P := fun c => isLetter c = false) (by decide +kernel) (toNat_mem_blankCodes blank)

theorem isDecimalDigit_of_isBlank (blank : isBlank c = true) : isDecimalDigit c = false :=
  of_codes (P := fun c => isDecimalDigit c = false) (by decide +kernel) (toNat_mem_blankCodes blank)

theorem isBlank_of_isLetter (letter : isLetter c = true) : isBlank c = false := by
  cases blank : isBlank c with
  | false => rfl
  | true =>
    rw [isLetter_of_isBlank blank] at letter
    cases letter

/-- The ten digits are neither blanks nor letters. -/
theorem isDigit_apart (digit : isDigit c = true) : isBlank c = false ∧ isLetter c = false :=
  of_codes (P := fun c => isBlank c = false ∧ isLetter c = false) (by decide +kernel)
    (toNat_mem_digitCodes digit)

theorem isDigit_of_isLetter (letter : isLetter c = true) : isDigit c = false := by
  cases digit : isDigit c with
  | false => rfl
  | true =>
    rw [(isDigit_apart digit).2] at letter
    cases letter

end Characters

namespace Scanner

variable {s s' : Scanner} {here : Location} {tokens : List Token} {c : Char} {rest : List Char}

/-- What comes of the characters that follow a state. -/
def resume (s : Scanner) (cs : List Char) : Except LexError (List Token) := do
  (← cs.foldlM step s).finish

theorem resume_cons (h : step s c = .ok s') : s.resume (c :: rest) = s'.resume rest := by
  rw [resume, List.foldlM_cons, h]
  rfl

theorem resume_cons_error {e : LexError} (h : step s c = .error e) :
    s.resume (c :: rest) = .error e := by
  rw [resume, List.foldlM_cons, h]
  rfl

theorem step_between {mode : Mode} {made : Option Token} (h : start here c = .ok (mode, made)) :
    step ⟨.between, here, tokens⟩ c = .ok ⟨mode, here.advance c, made.toList ++ tokens⟩ := by
  simp only [step, Mode.extend?, Mode.close, h]
  rfl

theorem step_between_error {e : LexError} (h : start here c = .error e) :
    step ⟨.between, here, tokens⟩ c = .error e := by
  simp only [step, Mode.extend?, Mode.close, h]
  rfl

/-- A lexeme that does not go on may as well have ended before the next character. -/
theorem resume_of_close {mode : Mode} {closed : Option Token} (closes : mode.close = .ok closed)
    (ends : ∀ c ∈ rest.head?, mode.extend? c = none) :
    resume ⟨mode, here, tokens⟩ rest = resume ⟨.between, here, closed.toList ++ tokens⟩ rest := by
  cases rest with
  | nil =>
    change finish ⟨mode, here, tokens⟩ = finish ⟨.between, here, closed.toList ++ tokens⟩
    simp only [finish, closes]
    rfl
  | cons c rest =>
    have same : step ⟨mode, here, tokens⟩ c =
        step ⟨.between, here, closed.toList ++ tokens⟩ c := by
      simp only [step, ends c rfl, closes]
      rfl
    rw [resume, resume, List.foldlM_cons, List.foldlM_cons, same]

/-- A comment has no token, and the line break behind it is a blank. -/
theorem resume_of_comment (ends : ∀ c ∈ rest.head?, c = '\n') :
    resume ⟨.comment, here, tokens⟩ rest = resume ⟨.between, here, tokens⟩ rest := by
  cases rest with
  | nil => rfl
  | cons c rest =>
    obtain rfl : c = '\n' := ends c rfl
    rfl

section Lexemes

variable {place : Location}

theorem start_of_isBlank (blank : isBlank c = true) : start here c = .ok (.between, none) := by
  simp only [start, blank, if_true]

theorem start_of_isDigit (digit : isDigit c = true) :
    start here c = .ok (.number here [c], none) := by
  have notQuote : ¬ c = '"' := by
    rintro rfl
    exact absurd digit (by decide)
  simp [start, (isDigit_apart digit).1, notQuote, digit]

theorem start_of_isLetter (letter : isLetter c = true) :
    start here c = .ok (.word here [c], none) := by
  have notQuote : ¬ c = '"' := by
    rintro rfl
    exact absurd letter (by decide +kernel)
  simp [start, isBlank_of_isLetter letter, isDigit_of_isLetter letter, notQuote, letter]

theorem resume_digits {before digits : List Char} (all : ∀ d ∈ digits, isDigit d = true) :
    resume ⟨.number place before, here, tokens⟩ (digits ++ rest) =
      resume ⟨.number place (digits.reverse ++ before), digits.foldl .advance here, tokens⟩
        rest := by
  induction digits generalizing before here with
  | nil => rfl
  | cons d digits ih =>
    obtain ⟨digit, later⟩ := List.forall_mem_cons.1 all
    have first : step ⟨.number place before, here, tokens⟩ d =
        .ok ⟨.number place (d :: before), here.advance d, tokens⟩ := by
      simp [step, Mode.extend?, digit]
    rw [List.cons_append, resume_cons first, ih later, List.reverse_cons, List.append_assoc]
    rfl

theorem resume_letters {before letters : List Char}
    (all : ∀ d ∈ letters, (isLetter d || isDecimalDigit d) = true) :
    resume ⟨.word place before, here, tokens⟩ (letters ++ rest) =
      resume ⟨.word place (letters.reverse ++ before), letters.foldl .advance here, tokens⟩
        rest := by
  induction letters generalizing before here with
  | nil => rfl
  | cons d letters ih =>
    obtain ⟨letter, later⟩ := List.forall_mem_cons.1 all
    have first : step ⟨.word place before, here, tokens⟩ d =
        .ok ⟨.word place (d :: before), here.advance d, tokens⟩ := by
      simp only [step, Mode.extend?, letter, if_true]
      rfl
    rw [List.cons_append, resume_cons first, ih later, List.reverse_cons, List.append_assoc]
    rfl

theorem resume_body {before body : List Char} (noQuote : '"' ∉ body) :
    resume ⟨.string place before, here, tokens⟩ (body ++ rest) =
      resume ⟨.string place (body.reverse ++ before), body.foldl .advance here, tokens⟩ rest := by
  induction body generalizing before here with
  | nil => rfl
  | cons d body ih =>
    have other : ¬ d = '"' := fun h => noQuote (h ▸ List.mem_cons_self)
    have first : step ⟨.string place before, here, tokens⟩ d =
        .ok ⟨.string place (d :: before), here.advance d, tokens⟩ := by
      simp [step, Mode.extend?, other]
    rw [List.cons_append, resume_cons first, ih fun h => noQuote (List.mem_cons_of_mem _ h),
      List.reverse_cons, List.append_assoc]
    rfl

theorem resume_commentBody {body : List Char} (noBreak : '\n' ∉ body) :
    resume ⟨.comment, here, tokens⟩ (body ++ rest) =
      resume ⟨.comment, body.foldl .advance here, tokens⟩ rest := by
  induction body generalizing here with
  | nil => rfl
  | cons d body ih =>
    have other : ¬ d = '\n' := fun h => noBreak (h ▸ List.mem_cons_self)
    have first : step ⟨.comment, here, tokens⟩ d = .ok ⟨.comment, here.advance d, tokens⟩ := by
      simp [step, Mode.extend?, other]
    rw [List.cons_append, resume_cons first, ih fun h => noBreak (List.mem_cons_of_mem _ h)]
    rfl

theorem resume_word {word : List Char} (isWord : IsWord word)
    (ends : ∀ c ∈ rest.head?, ¬ (isLetter c || isDecimalDigit c) = true) :
    resume ⟨.between, here, tokens⟩ (word ++ rest) =
      resume ⟨.between, word.foldl .advance here, wordToken here word :: tokens⟩ rest := by
  obtain ⟨c, letters, rfl, letter, all⟩ := isWord
  have stops (d : Char) (hd : d ∈ rest.head?) :
      Mode.extend? (.word here (letters.reverse ++ [c])) d = none := if_neg (ends d hd)
  rw [List.cons_append, resume_cons (step_between (start_of_isLetter letter)), resume_letters all,
    resume_of_close rfl stops, List.reverse_append, List.reverse_reverse]
  rfl

theorem resume_number {digits : List Char} (some : digits ≠ [])
    (all : ∀ c ∈ digits, isDigit c = true) (ends : ∀ c ∈ rest.head?, ¬ isDigit c = true) :
    resume ⟨.between, here, tokens⟩ (digits ++ rest) =
      resume ⟨.between, digits.foldl .advance here, token here .number digits :: tokens⟩ rest := by
  obtain ⟨c, digits, rfl⟩ := List.exists_cons_of_ne_nil some
  obtain ⟨digit, later⟩ := List.forall_mem_cons.1 all
  have stops (d : Char) (hd : d ∈ rest.head?) :
      Mode.extend? (.number here (digits.reverse ++ [c])) d = none := if_neg (ends d hd)
  rw [List.cons_append, resume_cons (step_between (start_of_isDigit digit)), resume_digits later,
    resume_of_close rfl stops, List.reverse_append, List.reverse_reverse]
  rfl

theorem resume_string {body : List Char} (noQuote : '"' ∉ body) :
    resume ⟨.between, here, tokens⟩ ('"' :: (body ++ ['"']) ++ rest) =
      resume ⟨.between, ('"' :: (body ++ ['"'])).foldl .advance here,
        token here .string body :: tokens⟩ rest := by
  have opens : start here '"' = .ok (.string here [], none) := rfl
  rw [List.cons_append, resume_cons (step_between opens), List.append_assoc, resume_body noQuote,
    List.cons_append, resume_cons (step_quote rfl)]
  simp

theorem resume_operator {symbol : List Char} (mem : symbol ∈ Token.operators)
    (ends : ∀ c ∈ rest.head?, ¬ Token.Kind.operator.Extends symbol c) :
    resume ⟨.between, here, tokens⟩ (symbol ++ rest) =
      resume ⟨.between, symbol.foldl .advance here, token here .operator symbol :: tokens⟩
        rest := by
  simp only [Token.operators, List.mem_cons, List.not_mem_nil, or_false] at mem
  -- Seven operators are whole as soon as they start.
  iterate 7
    rcases mem with rfl | mem
    · exact resume_cons rfl
  rcases mem with rfl | rfl | rfl | rfl | rfl | rfl
  · have stops (c : Char) (hc : c ∈ rest.head?) : Mode.extend? (.slash here) c = none :=
      if_neg fun h => ends c hc (.inr (.inr ⟨rfl, eq_of_beq h⟩))
    rw [List.singleton_append, resume_cons (step_between rfl), resume_of_close rfl stops]
    rfl
  · have stops (c : Char) (hc : c ∈ rest.head?) : Mode.extend? (.less here) c = none := by
      have other : ¬ c ∈ ['-', '=', '>'] := fun h => ends c hc (.inl ⟨rfl, h⟩)
      simp only [List.mem_cons, List.not_mem_nil, or_false, not_or] at other
      simp [Mode.extend?, other]
    rw [List.singleton_append, resume_cons (step_between rfl), resume_of_close rfl stops]
    rfl
  · exact (resume_cons (step_between rfl)).trans (resume_cons rfl)
  · exact (resume_cons (step_between rfl)).trans (resume_cons rfl)
  · have stops (c : Char) (hc : c ∈ rest.head?) : Mode.extend? (.greater here) c = none :=
      if_neg fun h => ends c hc (.inr (.inl ⟨rfl, eq_of_beq h⟩))
    rw [List.singleton_append, resume_cons (step_between rfl), resume_of_close rfl stops]
    rfl
  · exact (resume_cons (step_between rfl)).trans (resume_cons rfl)

theorem resume_mark {kind : Token.Kind} (mem : (c, kind) ∈ Token.marks) :
    resume ⟨.between, here, tokens⟩ (c :: rest) =
      resume ⟨.between, here.advance c, token here kind [c] :: tokens⟩ rest := by
  simp only [Token.marks, List.mem_cons, Prod.mk.injEq, List.not_mem_nil, or_false] at mem
  rcases mem with ⟨rfl, rfl⟩ | ⟨rfl, rfl⟩ | ⟨rfl, rfl⟩ | ⟨rfl, rfl⟩ | ⟨rfl, rfl⟩
  all_goals exact resume_cons rfl

theorem isTruthWord_iff {word : Text} :
    isTruthWord word = true ↔ word.lower ∈ Token.truthWords := by
  simp [isTruthWord, Token.truthWords]

theorem isReserved_iff {word : Text} :
    isReserved word = true ↔ word.lower ∈ Keyword.all.map Keyword.text := by
  simp [isReserved, Keyword.ofText?]

theorem not_mem_truthWords {word : Text} (reserved : word ∈ Keyword.all.map Keyword.text) :
    word ∉ Token.truthWords := by
  have apart : ∀ t ∈ Keyword.all.map Keyword.text, t ∉ Token.truthWords := by decide +kernel
  exact apart word reserved

theorem spelt_word {word : List Char} (isWord : IsWord word) :
    Spelt (wordKind (Text.ofChars word)) word word := by
  rw [wordKind]
  split
  · next truth => exact .truth isWord (isTruthWord_iff.1 truth)
  · next notTruth =>
    split
    · next reserved => exact .keyword isWord (isReserved_iff.1 reserved)
    · next notReserved =>
      exact .identifier isWord (mt isTruthWord_iff.2 notTruth) (mt isReserved_iff.2 notReserved)

/-- What extends a word does not depend on the kind of the word. -/
theorem extends_wordKind {word : Text} {lexeme : List Char} :
    (wordKind word).Extends lexeme c ↔ (isLetter c || isDecimalDigit c) = true := by
  rw [wordKind]
  split
  · rfl
  · split
    · rfl
    · rfl

/-- The scanner passes a lexeme and makes its token, if what follows does not belong to it. -/
theorem resume_spelt {kind : Token.Kind} {value lexeme : List Char}
    (spelt : Spelt kind value lexeme) (ends : ∀ c ∈ rest.head?, ¬ kind.Extends lexeme c) :
    resume ⟨.between, here, tokens⟩ (lexeme ++ rest) =
      resume ⟨.between, lexeme.foldl .advance here, token here kind value :: tokens⟩ rest := by
  cases spelt with
  | number some all => exact resume_number some all ends
  | string noQuote => exact resume_string noQuote
  | truth isWord mem =>
    rw [resume_word isWord ends, wordToken, wordKind, if_pos (isTruthWord_iff.2 mem)]
    rfl
  | keyword isWord mem =>
    rw [resume_word isWord ends, wordToken, wordKind,
      if_neg (mt isTruthWord_iff.1 (not_mem_truthWords mem)), if_pos (isReserved_iff.2 mem)]
    rfl
  | identifier isWord notTruth notReserved =>
    rw [resume_word isWord ends, wordToken, wordKind, if_neg (mt isTruthWord_iff.1 notTruth),
      if_neg (mt isReserved_iff.1 notReserved)]
    rfl
  | assignment => exact (resume_cons (step_between rfl)).trans (resume_cons rfl)
  | operator mem => exact resume_operator mem ends
  | mark mem => exact resume_mark mem

end Lexemes

end Scanner

/-- Behind a tiled part no lexeme is under way, and the tokens are those of the part. -/
theorem Tiled.scanChars {done rest : List Char} {ts : List Token} (tiled : Tiled done ts rest) :
    scanChars (done ++ rest) =
      Scanner.resume ⟨.between, .behind done, ts.reverse⟩ rest := by
  induction tiled with
  | start rest => rfl
  | blank _ blank ih =>
    rw [List.append_assoc, List.singleton_append, ih, Location.behind_append_singleton]
    exact Scanner.resume_cons (Scanner.step_between (Scanner.start_of_isBlank blank))
  | comment _ noBreak ends ih =>
    rw [List.append_assoc, ih, Location.behind_append, List.cons_append, List.cons_append]
    rw [Scanner.resume_cons (Scanner.step_between rfl), Scanner.resume_cons rfl,
      Scanner.resume_commentBody noBreak, Scanner.resume_of_comment ends]
    rfl
  | token _ spelt ends ih =>
    rw [List.append_assoc, ih, Location.behind_append, List.reverse_append]
    exact Scanner.resume_spelt spelt ends

namespace Scanner

variable {here : Location} {tokens : List Token} {c : Char} {rest : List Char}

theorem isWord_singleton (letter : isLetter c = true) : IsWord [c] := ⟨c, [], rfl, letter, nofun⟩

theorem mem_marks_of_punctuation? {kind : Token.Kind} (h : punctuation? c = some kind) :
    (c, kind) ∈ Token.marks := by
  rw [punctuation?.eq_def] at h
  split at h
  all_goals
    cases h
  all_goals
    decide

theorem singleton_mem_operators (h : c ∈ plainOperators) : [c] ∈ Token.operators := by
  have each : (plainOperators.all fun c => decide ([c] ∈ Token.operators)) = true := by decide
  exact of_decide_eq_true (List.all_eq_true.1 each c h)

theorem start_of_not_spelt (notBlank : isBlank c = false)
    (none : ∀ kind value lexeme, Spelt kind value lexeme → lexeme.head? ≠ some c) :
    start here c = .error ⟨here, .unexpectedCharacter c⟩ := by
  have notQuote : ¬ c = '"' := fun h =>
    none _ _ _ (.string List.not_mem_nil) (congrArg some h.symm)
  have notDigit : ¬ isDigit c = true := fun h =>
    none _ [c] [c] (.number nofun (by simpa using h)) rfl
  have notLetter : ¬ isLetter c = true := fun h => none _ _ _ (spelt_word (isWord_singleton h)) rfl
  have notOperator (symbol : List Char) (mem : symbol ∈ Token.operators) :
      symbol.head? ≠ some c := none _ _ _ (.operator mem)
  have notSlash : ¬ c = '/' := fun h => notOperator ['/'] (by decide) (congrArg some h.symm)
  have notLess : ¬ c = '<' := fun h => notOperator ['<'] (by decide) (congrArg some h.symm)
  have notGreater : ¬ c = '>' := fun h => notOperator ['>'] (by decide) (congrArg some h.symm)
  have notPlain : ¬ c ∈ plainOperators := fun h => notOperator [c] (singleton_mem_operators h) rfl
  have notMark : punctuation? c = Option.none := by
    cases mark : punctuation? c with
    | none => rfl
    | some kind => exact absurd rfl (none _ _ _ (.mark (mem_marks_of_punctuation? mark)))
  simp [start, notBlank, notQuote, notDigit, notLetter, notSlash, notLess, notGreater, notPlain,
    notMark]

theorem resume_of_stuck {cause : LexCause} (stuck : Stuck cause rest) :
    resume ⟨.between, here, tokens⟩ rest = .error ⟨here, cause⟩ := by
  cases stuck with
  | @unterminated body noQuote =>
    rw [resume_cons (step_between rfl), ← List.append_nil body, resume_body noQuote]
    rfl
  | unexpected notBlank none =>
    exact resume_cons_error (step_between_error (start_of_not_spelt notBlank none))

end Scanner

/-- No lexeme goes on with a blank. -/
theorem Token.Kind.not_extends_of_isBlank (kind : Kind) (lexeme : List Char) {c : Char}
    (blank : isBlank c = true) : ¬ kind.Extends lexeme c := by
  have noLetter : ¬ (isLetter c || isDecimalDigit c) = true := by
    rw [isLetter_of_isBlank blank, isDecimalDigit_of_isBlank blank]
    exact Bool.false_ne_true
  cases kind with
  | number =>
    intro digit
    rw [(isDigit_apart digit).1] at blank
    cases blank
  | boolean | keyword | identifier => exact noLetter
  | operator =>
    rintro (⟨-, mem⟩ | ⟨-, rfl⟩ | ⟨-, rfl⟩)
    · have apart : (['-', '=', '>'].all fun d => !isBlank d) = true := by decide
      have notBlank := List.all_eq_true.1 apart c mem
      rw [blank] at notBlank
      cases notBlank
    · exact absurd blank (by decide)
    · exact absurd blank (by decide)
  | _ => exact id

section Existence

variable {done rest : List Char} {ts : List Token} {c : Char}

/-- What satisfies a property, with what does not at the head of the rest. -/
private theorem split_while (p : Char → Bool) (cs : List Char) :
    ∃ first rest, cs = first ++ rest ∧ (∀ d ∈ first, p d = true) ∧
      ∀ d ∈ rest.head?, ¬ p d = true := by
  refine ⟨cs.takeWhile p, cs.dropWhile p, List.takeWhile_append_dropWhile.symm, ?_, ?_⟩
  · exact fun d hd => List.all_eq_true.1 List.all_takeWhile d hd
  · intro d hd
    have := List.head?_dropWhile_not p cs
    rw [Option.mem_def.1 hd] at this
    simpa using this

/-- A tiled part can be made longer by a piece of what follows. -/
def GoesOn (done rest : List Char) : Prop :=
  ∃ piece ts' rest', rest = piece ++ rest' ∧ piece ≠ [] ∧ Tiled (done ++ piece) ts' rest'

theorem Token.Spelt.ne_nil {kind : Token.Kind} {value lexeme : List Char}
    (spelt : Spelt kind value lexeme) : lexeme ≠ [] := by
  cases spelt with
  | number some _ => exact some
  | truth isWord _ | keyword isWord _ | identifier isWord _ _ =>
    obtain ⟨c, rest, rfl, -⟩ := isWord
    exact nofun
  | operator mem =>
    rintro rfl
    exact absurd mem (by decide)
  | string | assignment | mark => exact nofun

theorem Token.not_extends_mark {kind : Token.Kind} {lexeme : List Char} {d : Char}
    (mem : (c, kind) ∈ Token.marks) : ¬ kind.Extends lexeme d := by
  simp only [Token.marks, List.mem_cons, Prod.mk.injEq, List.not_mem_nil, or_false] at mem
  rcases mem with ⟨-, rfl⟩ | ⟨-, rfl⟩ | ⟨-, rfl⟩ | ⟨-, rfl⟩ | ⟨-, rfl⟩
  all_goals exact id

namespace Tiled

theorem goesOn (lexeme : List Char) {kind : Token.Kind} {value after : List Char}
    (tiled : Tiled done ts (lexeme ++ after)) (spelt : Spelt kind value lexeme)
    (ends : ∀ d ∈ after.head?, ¬ kind.Extends lexeme d) : GoesOn done (lexeme ++ after) :=
  ⟨lexeme, _, after, rfl, spelt.ne_nil, .token tiled spelt ends⟩

theorem goesOn_blank (tiled : Tiled done ts (c :: rest)) (blank : isBlank c = true) :
    GoesOn done (c :: rest) :=
  ⟨[c], ts, rest, rfl, nofun, .blank tiled blank⟩

theorem goesOn_digit (tiled : Tiled done ts (c :: rest)) (digit : isDigit c = true) :
    GoesOn done (c :: rest) := by
  obtain ⟨digits, after, rfl, all, ends⟩ := split_while isDigit rest
  have spelt : Spelt .number (c :: digits) (c :: digits) :=
    .number nofun (List.forall_mem_cons.2 ⟨digit, all⟩)
  exact tiled.goesOn (c :: digits) spelt ends

theorem goesOn_letter (tiled : Tiled done ts (c :: rest)) (letter : isLetter c = true) :
    GoesOn done (c :: rest) := by
  obtain ⟨letters, after, rfl, all, ends⟩ :=
    split_while (fun d => isLetter d || isDecimalDigit d) rest
  have spelt := Scanner.spelt_word ⟨c, letters, rfl, letter, all⟩
  exact tiled.goesOn (c :: letters) spelt fun d hd =>
    mt Scanner.extends_wordKind.1 (ends d hd)

/-- A string goes on up to the next quotation mark, if there is one. -/
theorem goesOn_quote (tiled : Tiled done ts ('"' :: rest)) :
    Stuck .unterminatedString ('"' :: rest) ∨ GoesOn done ('"' :: rest) := by
  by_cases quote : '"' ∈ rest
  · obtain ⟨body, after, rfl, noQuote⟩ := List.eq_append_cons_of_mem quote
    right
    have split : '"' :: (body ++ '"' :: after) = '"' :: (body ++ ['"']) ++ after := by simp
    rw [split] at tiled ⊢
    exact tiled.goesOn _ (.string noQuote) fun _ _ => id
  · exact .inl (.unterminated quote)

/-- Two slashes start a comment, and one is an operator. -/
theorem goesOn_slash (tiled : Tiled done ts ('/' :: rest)) : GoesOn done ('/' :: rest) := by
  by_cases second : '/' ∈ rest.head?
  · obtain ⟨more, rfl⟩ := List.head?_eq_some_iff.1 second
    obtain ⟨body, after, rfl, all, ends⟩ := split_while (· != '\n') more
    refine ⟨'/' :: '/' :: body, ts, after, rfl, nofun, .comment tiled ?_ ?_⟩
    · intro mem
      exact absurd (all _ mem) (by decide)
    · intro d hd
      simpa using ends d hd
  · refine tiled.goesOn ['/'] (.operator (by decide)) fun d hd extends' => ?_
    rcases extends' with ⟨other, -⟩ | ⟨other, -⟩ | ⟨-, rfl⟩
    · exact absurd other (by decide)
    · exact absurd other (by decide)
    · exact second hd

theorem goesOn_less (tiled : Tiled done ts ('<' :: rest)) : GoesOn done ('<' :: rest) := by
  by_cases two : ∃ d ∈ rest.head?, d ∈ ['-', '=', '>']
  · obtain ⟨d, hd, mem⟩ := two
    obtain ⟨after, rfl⟩ := List.head?_eq_some_iff.1 hd
    simp only [List.mem_cons, List.not_mem_nil, or_false] at mem
    rcases mem with rfl | rfl | rfl
    · exact tiled.goesOn ['<', '-'] .assignment fun _ _ => id
    · refine tiled.goesOn ['<', '='] (.operator (by decide)) fun d _ => ?_
      simp [Token.Kind.Extends]
    · refine tiled.goesOn ['<', '>'] (.operator (by decide)) fun d _ => ?_
      simp [Token.Kind.Extends]
  · refine tiled.goesOn ['<'] (.operator (by decide)) fun d hd extends' => ?_
    rcases extends' with ⟨-, mem⟩ | ⟨other, -⟩ | ⟨other, -⟩
    · exact two ⟨d, hd, mem⟩
    · exact absurd other (by decide)
    · exact absurd other (by decide)

theorem goesOn_greater (tiled : Tiled done ts ('>' :: rest)) : GoesOn done ('>' :: rest) := by
  by_cases two : '=' ∈ rest.head?
  · obtain ⟨after, rfl⟩ := List.head?_eq_some_iff.1 two
    refine tiled.goesOn ['>', '='] (.operator (by decide)) fun d _ => ?_
    simp [Token.Kind.Extends]
  · refine tiled.goesOn ['>'] (.operator (by decide)) fun d hd extends' => ?_
    rcases extends' with ⟨other, -⟩ | ⟨-, rfl⟩ | ⟨other, -⟩
    · exact absurd other (by decide)
    · exact two hd
    · exact absurd other (by decide)

/-- Three operators depend on what follows their first character, and the others do not. -/
theorem goesOn_operator {symbol : List Char} (mem : symbol ∈ Token.operators)
    (head : symbol.head? = some c) (tiled : Tiled done ts (c :: rest)) :
    GoesOn done (c :: rest) := by
  simp only [Token.operators, List.mem_cons, List.not_mem_nil, or_false] at mem
  iterate 7
    rcases mem with rfl | mem
    · cases head
      refine tiled.goesOn [_] (.operator (by decide)) fun d _ => ?_
      simp [Token.Kind.Extends]
  rcases mem with rfl | rfl | rfl | rfl | rfl | rfl
  all_goals cases head
  · exact tiled.goesOn_slash
  · exact tiled.goesOn_less
  · exact tiled.goesOn_less
  · exact tiled.goesOn_less
  · exact tiled.goesOn_greater
  · exact tiled.goesOn_greater

/-- Behind a tiled part comes a piece that makes the part longer, or nothing can come. -/
theorem onward (tiled : Tiled done ts (c :: rest)) :
    (∃ cause, Stuck cause (c :: rest)) ∨ GoesOn done (c :: rest) := by
  by_cases blank : isBlank c = true
  · exact .inr (tiled.goesOn_blank blank)
  by_cases spelt : ∃ kind value lexeme, Spelt kind value lexeme ∧ lexeme.head? = some c
  · obtain ⟨kind, value, lexeme, spelt, head⟩ := spelt
    cases spelt with
    | number some all =>
      exact .inr (tiled.goesOn_digit (all c (List.mem_of_mem_head? head)))
    | string =>
      cases head
      exact tiled.goesOn_quote.imp_left fun stuck => ⟨_, stuck⟩
    | truth isWord _ | keyword isWord _ | identifier isWord _ _ =>
      obtain ⟨d, letters, rfl, letter, -⟩ := isWord
      cases head
      exact .inr (tiled.goesOn_letter letter)
    | assignment =>
      cases head
      exact .inr tiled.goesOn_less
    | operator mem => exact .inr (tiled.goesOn_operator mem head)
    | mark mem =>
      cases head
      exact .inr (tiled.goesOn [c] (.mark mem) fun d _ => Token.not_extends_mark mem)
  · refine .inl ⟨_, .unexpected (Bool.eq_false_iff.2 blank) ?_⟩
    intro kind value lexeme h head
    exact spelt ⟨kind, value, lexeme, h, head⟩

end Tiled

/-- The tiling of a part goes on to the end or to a place where nothing fits. -/
theorem Tiled.exists_end (tiled : Tiled done ts rest) :
    ∃ done' ts' rest', done ++ rest = done' ++ rest' ∧ Tiled done' ts' rest' ∧
      (rest' = [] ∨ ∃ cause, Stuck cause rest') := by
  induction h : rest.length using Nat.strongRecOn generalizing done ts rest with
  | ind n ih =>
    cases rest with
    | nil => exact ⟨done, ts, [], rfl, tiled, .inl rfl⟩
    | cons c rest =>
      rcases tiled.onward with stuck | ⟨piece, ts', rest', split, nonempty, longer⟩
      · exact ⟨done, ts, c :: rest, rfl, tiled, .inr stuck⟩
      · have shorter : rest'.length < n := by
          have := List.length_pos_iff.2 nonempty
          rw [← h, split, List.length_append]
          omega
        obtain ⟨done', ts'', rest'', same, further⟩ := ih _ shorter longer rfl
        refine ⟨done', ts'', rest'', ?_, further⟩
        rw [split, ← List.append_assoc, same]

end Existence

/-- What a source is tiled to decides what the scanner says of it. -/
theorem Tiled.scan_of_nil {src : Text} {ts : List Token} (tiled : Tiled src.chars ts []) :
    scan src = .ok ts := by
  have scanned := tiled.scanChars
  rw [List.append_nil] at scanned
  rw [scan, scanned]
  change Except.ok ts.reverse.reverse = _
  rw [List.reverse_reverse]

theorem Tiled.scan_of_stuck {src : Text} {done rest : List Char} {ts : List Token}
    (split : src.chars = done ++ rest) (tiled : Tiled done ts rest) {cause : LexCause}
    (stuck : Stuck cause rest) : scan src = .error ⟨.behind done, cause⟩ := by
  rw [scan, split, tiled.scanChars]
  exact Scanner.resume_of_stuck stuck

theorem Stuck.isIncomplete_iff {cause : LexCause} {rest : List Char} (stuck : Stuck cause rest) :
    cause.isIncomplete = true ↔ rest.head? = some '"' := by
  cases stuck with
  | unterminated => exact ⟨fun _ => rfl, fun _ => rfl⟩
  | unexpected _ none =>
    refine ⟨nofun, fun head => ?_⟩
    exact absurd head.symm (none _ _ _ (.string List.not_mem_nil))

/-- A source is tiled to its end, or as far as a place where nothing fits. -/
theorem tiled_or_stuck (src : Text) :
    (∃ ts, Tiled src.chars ts []) ∨
      ∃ done ts rest cause, src.chars = done ++ rest ∧ Tiled done ts rest ∧ Stuck cause rest := by
  obtain ⟨done, ts, rest, split, tiled, rfl | ⟨cause, stuck⟩⟩ := (Tiled.start src.chars).exists_end
  · rw [List.append_nil, List.nil_append] at split
    exact .inl ⟨ts, split ▸ tiled⟩
  · exact .inr ⟨done, ts, rest, cause, split, tiled, stuck⟩

theorem scan_eq_ok_iff {src : Text} {ts : List Token} :
    scan src = .ok ts ↔ Tiled src.chars ts [] := by
  refine ⟨fun ok => ?_, Tiled.scan_of_nil⟩
  rcases tiled_or_stuck src with ⟨ts', tiled⟩ | ⟨done, _, rest, cause, split, tiled, stuck⟩
  · rw [tiled.scan_of_nil] at ok
    cases ok
    exact tiled
  · rw [tiled.scan_of_stuck split stuck] at ok
    cases ok

theorem scan_eq_error_iff {src : Text} {e : LexError} :
    scan src = .error e ↔ ∃ done ts rest, src.chars = done ++ rest ∧ Tiled done ts rest ∧
      e.loc = .behind done ∧ Stuck e.cause rest := by
  constructor
  · intro failed
    rcases tiled_or_stuck src with ⟨ts, tiled⟩ | ⟨done, ts, rest, cause, split, tiled, stuck⟩
    · rw [tiled.scan_of_nil] at failed
      cases failed
    · rw [tiled.scan_of_stuck split stuck] at failed
      cases failed
      exact ⟨done, ts, rest, split, tiled, rfl, stuck⟩
  · rintro ⟨done, ts, rest, split, tiled, loc, stuck⟩
    rw [tiled.scan_of_stuck split stuck, ← loc]

/-- **The scanner tiles a source.** It gives exactly the tokens of a tiling of the whole source;
and it fails exactly where a part is tiled and what follows is a string that does not end, which
more characters could mend, or a character that starts nothing, which they could not. -/
theorem scan_tiles (src : Text) :
    (∀ ts, scan src = .ok ts ↔ Tiled src.chars ts []) ∧
    (∀ e, scan src = .error e ↔
      ∃ done ts rest, src.chars = done ++ rest ∧ Tiled done ts rest ∧ e.loc = .behind done ∧
        Stuck e.cause rest ∧ (e.cause.isIncomplete = true ↔ rest.head? = some '"')) := by
  refine ⟨fun _ => scan_eq_ok_iff, fun e => scan_eq_error_iff.trans ⟨?_, ?_⟩⟩
  · rintro ⟨done, ts, rest, split, tiled, loc, stuck⟩
    exact ⟨done, ts, rest, split, tiled, loc, stuck, stuck.isIncomplete_iff⟩
  · rintro ⟨done, ts, rest, split, tiled, loc, stuck, -⟩
    exact ⟨done, ts, rest, split, tiled, loc, stuck⟩

end Pseudocode

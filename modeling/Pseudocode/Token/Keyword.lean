import Pseudocode.Text.Case

/-!
# Reserved words

A word of a source is reserved when its lower-case form is one of the spellings below. Where the
grammar asks for a particular reserved word, it compares up to case orbits instead.
-/

namespace Pseudocode

/-- The reserved words. -/
inductive Keyword where
  | algoritmo | finAlgoritmo | escribir | leer | dimension
  | si | finSi | sino | entonces
  | segun | de | otro | modo | finSegun | caso
  | mientras | hacer | finMientras
  | repetir | hasta | que
  | para | con | paso | finPara
  deriving DecidableEq, Repr

namespace Keyword

/-- How a reserved word is spelt in lower case. -/
def spelling : Keyword → String
  | algoritmo => "algoritmo"
  | finAlgoritmo => "finalgoritmo"
  | escribir => "escribir"
  | leer => "leer"
  | dimension => "dimension"
  | si => "si"
  | finSi => "finsi"
  | sino => "sino"
  | entonces => "entonces"
  | segun => "segun"
  | de => "de"
  | otro => "otro"
  | modo => "modo"
  | finSegun => "finsegun"
  | caso => "caso"
  | mientras => "mientras"
  | hacer => "hacer"
  | finMientras => "finmientras"
  | repetir => "repetir"
  | hasta => "hasta"
  | que => "que"
  | para => "para"
  | con => "con"
  | paso => "paso"
  | finPara => "finpara"

/-- All reserved words. -/
def all : List Keyword :=
  [algoritmo, finAlgoritmo, escribir, leer, dimension, si, finSi, sino, entonces, segun, de, otro,
   modo, finSegun, caso, mientras, hacer, finMientras, repetir, hasta, que, para, con, paso,
   finPara]

/-- The spelling as a text. -/
def text (k : Keyword) : Text := k.spelling

/-- The reserved word that a word is, ignoring case. -/
def ofText? (word : Text) : Option Keyword :=
  let small := word.lower
  all.find? fun k => k.text == small

end Keyword

/-- Whether a word is reserved, ignoring case. -/
def isReserved (word : Text) : Bool := (Keyword.ofText? word).isSome

/-- Whether a word is one of the two truth values, ignoring case. -/
def isTruthWord (word : Text) : Bool :=
  word.lower == Text.ofString "verdadero" || word.lower == Text.ofString "falso"

end Pseudocode

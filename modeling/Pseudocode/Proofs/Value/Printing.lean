import Mathlib
import Pseudocode.Proofs.Number.Reading
import Pseudocode.Proofs.Outcome
import Pseudocode.Run.Eval
import Pseudocode.Value.Input

/-!
# Printed numbers are numbers again

A number that is printed comes back in two ways: typed in a line, and as the argument of the
conversion to a number. Both trim the blanks around it and read what is left, and the filter on
typed lines lets everything through that is printed for a number. What is printed for no number
comes back from the conversion but is a text in a line.
-/

namespace Pseudocode

/-- What has blanks around it and none in it is what is left when it is trimmed. -/
theorem trimWhile_append {α : Type} {p : α → Bool} {before middle after : List α}
    (front : ∀ a ∈ before, p a = true) (kept : ∀ a ∈ middle, p a = false)
    (back : ∀ a ∈ after, p a = true) : trimWhile p (before ++ (middle ++ after)) = middle := by
  have clean (xs rest : List α) (kept : ∀ a ∈ xs, p a = false) (some : xs ≠ []) :
      (xs ++ rest).dropWhile p = xs ++ rest := by
    obtain ⟨a, xs, rfl⟩ := List.exists_cons_of_ne_nil some
    exact List.dropWhile_cons_of_neg (by simp [kept a])
  rw [trimWhile, List.dropWhile_append_of_pos front]
  by_cases none : middle = []
  · rw [none, List.nil_append, List.dropWhile_eq_nil_iff.2 back]
    rfl
  · rw [clean _ _ kept none, List.reverse_append,
      List.dropWhile_append_of_pos (by simpa using back)]
    have reversed := clean middle.reverse [] (by simpa using kept) (by simpa using none)
    rw [List.append_nil] at reversed
    rw [reversed, List.reverse_reverse]

/-- What stands between the space and the end of the ASCII characters is no blank. -/
theorem isBlank_eq_false {c : Char} (low : 32 < c.toNat) (high : c.toNat < 127) :
    isBlank c = false := by
  simp only [isBlank, Bool.or_eq_false_iff, Bool.and_eq_false_iff, beq_eq_false_iff_ne,
    decide_eq_false_iff_not]
  omega

namespace Number

open Numeral

variable {x : Number}

/-- A number is printed with visible ASCII characters. -/
theorem exists_chars_cons (x : Number) :
    ∃ c cs, x.chars = c :: cs ∧ ∀ a ∈ c :: cs, 32 < a.toNat ∧ a.toNat < 127 := by
  rcases x.forms with rfl | ⟨negative, rfl⟩ | ⟨negative, rfl⟩ | ⟨finite, positive⟩
  · exact ⟨'N', ['a', 'N'], by decide +kernel, by simp⟩
  · cases negative with
    | true => exact ⟨'-', "Infinity".toList, by decide +kernel, by simp⟩
    | false => exact ⟨'I', "nfinity".toList, by decide +kernel, by simp⟩
  · cases negative with
    | true => exact ⟨'-', ['0'], by decide +kernel, by simp⟩
    | false => exact ⟨'0', [], by decide +kernel, by simp⟩
  · obtain ⟨c, rest, spelt, -⟩ := exists_positional_cons x.shortest
    have plain : ∀ a ∈ c :: rest, 32 < a.toNat ∧ a.toNat < 127 := by
      intro a mem
      have bounds := (isPlain_of_mem_positional (spelt ▸ mem)).toNat_bounds
      omega
    rw [chars_of_finite finite positive, spelt, withSign]
    split
    · exact ⟨'-', c :: rest, rfl, List.forall_mem_cons.2 ⟨by decide +kernel, plain⟩⟩
    · exact ⟨c, rest, rfl, plain⟩

theorem mem_decimalChars {c : Char} (plain : IsPlain c) : Value.decimalChars.contains c = true := by
  rcases plain with digit | rfl
  · have bounds := isDigit_iff.1 digit
    have all : ∀ k : Fin 10, Value.decimalChars.contains (Char.ofNat (48 + k)) = true := by
      decide +kernel
    have spelt : Char.ofNat (48 + (c.toNat - 48)) = c := by
      rw [Nat.add_sub_cancel' bounds.1, Char.ofNat_toNat]
    rw [← spelt]
    exact all ⟨c.toNat - 48, by omega⟩
  · decide +kernel

/-- The filter on typed lines lets through what is printed for a number, and only that. -/
theorem isDecimal_chars (x : Number) : Value.isDecimal x.chars = !x.isNaN := by
  rcases x.forms with rfl | ⟨negative, rfl⟩ | ⟨negative, rfl⟩ | ⟨finite, positive⟩
  · decide +kernel
  · cases negative with
    | true => decide +kernel
    | false => decide +kernel
  · cases negative with
    | true => decide +kernel
    | false => decide +kernel
  · obtain ⟨c, rest, spelt, digit⟩ := exists_positional_cons x.shortest
    have plain : ∀ a ∈ c :: rest, Value.decimalChars.contains a = true :=
      fun a mem => mem_decimalChars (isPlain_of_mem_positional (spelt ▸ mem))
    rw [isNaN_of_finite finite, chars_of_finite finite positive, spelt, withSign, Value.isDecimal,
      Bool.not_false, Bool.or_eq_true, Bool.and_eq_true, List.all_eq_true, List.any_eq_true]
    refine .inr ?_
    split
    · exact ⟨List.forall_mem_cons.2 ⟨by decide +kernel, plain⟩, c, by simp, digit⟩
    · exact ⟨plain, c, List.mem_cons_self, digit⟩

/-- Reading between blanks what is printed for a number. -/
theorem trimWhile_text {before after : Text} (front : before.isBlank = true)
    (back : after.isBlank = true) :
    trimWhile isBlank (before ++ x.text ++ after).chars = x.unsigned.chars := by
  obtain ⟨c, cs, spelt, visible⟩ := x.unsigned.exists_chars_cons
  have small := visible c List.mem_cons_self
  rw [text_eq, spelt, Text.append_assoc, Text.chars_append_ofChars_cons (by omega)]
  refine trimWhile_append (List.all_eq_true.1 front) ?_ (List.all_eq_true.1 back)
  exact fun a mem => isBlank_eq_false (visible a mem).1 (visible a mem).2

theorem isNaN_unsigned (x : Number) : x.unsigned.isNaN = x.isNaN := by
  rw [unsigned]
  split
  · next zero =>
    rw [Float.isNaN_eq_decide_eq_nan (f := x),
      decide_eq_false (Float.beq_iff_ne_nan_and_eq.1 zero).1]
    decide +kernel
  · rfl

end Number

section Reading

variable {x : Number} {before after : Text} (front : before.isBlank = true)
  (back : after.isBlank = true)
include front back

theorem Value.ofInput_text : Value.ofInput (before ++ x.text ++ after) =
    if x.isNaN then .text (before ++ x.text ++ after) else .number x.unsigned := by
  simp only [ofInput, Number.trimWhile_text front back, Number.isDecimal_chars,
    Number.isNaN_unsigned, Number.ofChars?_chars]
  cases x.isNaN with
  | true => rfl
  | false => rfl

theorem Builtin.toNumber_text :
    Builtin.toNumber (.text (before ++ x.text ++ after)) = x.unsigned := by
  obtain ⟨c, cs, spelt, -⟩ := x.unsigned.exists_chars_cons
  simp only [toNumber, Number.trimWhile_text front back, Number.ofChars?_chars, Option.getD_some]
  rw [spelt, List.isEmpty_cons, if_neg Bool.false_ne_true]

end Reading

/-- A call of a function with one argument, where neither draws a random number for the result. -/
theorem Expr.eval_call_one {draws : Nat → Number} {store : Store} {loc : Option Location}
    {name : Text} {b : Builtin} {e : Expr} {v w : Value} {n n' : Nat}
    (named : Builtin.ofName? name = some b) (takes : b.takes 1 = true)
    (evaluated : e.eval draws store n = (.ok v, n'))
    (applied : b.apply draws store.arrays [v] n' = (.ok w, n')) :
    (Expr.call loc name [e]).eval draws store n = (.ok w, n') := by
  have arguments : evalAll draws store [e] n = (.ok [v], n') := by
    rw [evalAll, Action.bind_of_ok evaluated, evalAll]
    rfl
  rw [Expr.eval, named]
  refine (Action.bind_of_ok arguments).trans ?_
  rw [Eval.call, List.length_singleton, takes, if_pos rfl, Action.onPart]
  simp only [id, applied]

/-- **A printed number can be read back**, but for the sign of a zero. The conversion to a text and
back gives the number, and a line with the text of the number in it, whatever blanks stand around
it, is read as the number. Only the text of what is no number stays a text there. -/
theorem Number.printed_reads_back (x : Number) :
    (∀ (draws : Nat → Number) (store : Store) (loc loc' : Option Location) (name name' : Text)
      (e : Expr) (n n' : Nat), Builtin.ofName? name = some .convertirANumero →
      Builtin.ofName? name' = some .convertirATexto → e.eval draws store n = (.ok (.number x), n') →
      (Expr.call loc name [.call loc' name' [e]]).eval draws store n =
        (.ok (.number x.unsigned), n')) ∧
    ∀ before after : Text, before.isBlank = true → after.isBlank = true →
      Value.ofInput (before ++ x.text ++ after) =
        if x.isNaN then .text (before ++ x.text ++ after) else .number x.unsigned := by
  refine ⟨?_, fun before after front back => Value.ofInput_text front back⟩
  intro draws store loc loc' name name' e n n' named named' evaluated
  have shown : (Value.number x).toText store.arrays = x.text := by
    rw [Value.toText, Value.textWithin]
  have printed : (Expr.call loc' name' [e]).eval draws store n = (.ok (.text x.text), n') := by
    refine Expr.eval_call_one named' rfl evaluated ?_
    rw [← shown]
    rfl
  have read : Builtin.toNumber (.text x.text) = x.unsigned := by
    have alone : Builtin.toNumber (.text (.empty ++ x.text ++ .empty)) = x.unsigned :=
      Builtin.toNumber_text rfl rfl
    rwa [Text.empty_append, Text.append_empty] at alone
  refine Expr.eval_call_one named rfl printed ?_
  rw [← read]
  rfl

/-- The least positive number comes back from its more than three hundred digits, and the negative
zero as zero. -/
theorem Number.printed_reads_back_least :
    (Expr.call none "ConvertirANumero" [.call none "ConvertirATexto"
      [.number none (ofMagnitude false 1)]]).eval (fun _ => 0) .empty 0 =
        (.ok (.number (ofMagnitude false 1)), 0) ∧
      Value.ofInput ("  " ++ (ofMagnitude true 0).text ++ "\t") = .number 0 := by
  have least : (ofMagnitude false 1).unsigned = ofMagnitude false 1 := by decide +kernel
  have zero : (ofMagnitude true 0).unsigned = 0 := by decide +kernel
  have number : (ofMagnitude true 0).isNaN = false := by decide +kernel
  refine ⟨?_, ?_⟩
  · have back := (printed_reads_back (ofMagnitude false 1)).1 (fun _ => 0) .empty none none
      "ConvertirANumero" "ConvertirATexto" (.number none (ofMagnitude false 1)) 0 0
      (by decide +kernel) (by decide +kernel) rfl
    rwa [least] at back
  · have read := (printed_reads_back (ofMagnitude true 0)).2 "  " "\t" (by decide +kernel)
      (by decide +kernel)
    rwa [number, if_neg Bool.false_ne_true, zero] at read

end Pseudocode

import DawnPatrol.Foundation.JsonText
import Mathlib.Data.List.Lex
import Mathlib.Data.List.TakeWhile
import Mathlib.Data.String.Basic

/-!
# Texts that start with numbers

Texts are ordered character by character, which is not the order of the numbers
they start with: `"10-b"` comes before `"9-a"`. Numbers that are written with
equally many digits are ordered as their texts are (`lt_of_number_lt`), so a
sort by text is a sort by number.
-/

set_option autoImplicit false

namespace DawnPatrol.Foundation.Decimal

/-- The digits a text starts with. -/
def digits (text : List Char) : List Char := text.takeWhile Char.isDigit

/-- The number a text starts with, and zero when it starts with none. -/
def number (text : List Char) : ℕ := Nat.ofDigitChars 10 (digits text) 0

theorem isDigit_of_mem_digits {text : List Char} {c : Char} (member : c ∈ digits text) :
    c.isDigit = true :=
  List.mem_takeWhile_imp member

/-- The value of a digit decides against any shorter rest. -/
theorem digit_le_of_value_le {c d : Char} {first second : List Char}
    (cDigit : c.isDigit = true) (dDigit : d.isDigit = true)
    (digitsFirst : ∀ x ∈ first, x.isDigit = true) (digitsSecond : ∀ x ∈ second, x.isDigit = true)
    (sameLength : first.length = second.length)
    (less : Nat.ofDigitChars 10 (c :: first) 0 < Nat.ofDigitChars 10 (d :: second) 0) :
    c < d ∨ c = d ∧ Nat.ofDigitChars 10 first 0 < Nat.ofDigitChars 10 second 0 := by
  have belowFirst := Json.ofDigitChars_lt digitsFirst
  have belowSecond := Json.ofDigitChars_lt digitsSecond
  have split : ∀ (x : Char) (rest : List Char), Nat.ofDigitChars 10 (x :: rest) 0 =
      10 ^ rest.length * (x.toNat - '0'.toNat) + Nat.ofDigitChars 10 rest 0 := by
    intro x rest
    rw [Nat.ofDigitChars_cons, Nat.ofDigitChars_eq_ofDigitChars_zero, Nat.mul_zero, Nat.zero_add]
  rw [split, split, sameLength] at less
  rw [sameLength] at belowFirst
  simp only [Char.isDigit, Bool.and_eq_true, decide_eq_true_eq, ge_iff_le,
    UInt32.le_iff_toNat_le] at cDigit dDigit
  have zero : '0'.toNat = 48 := rfl
  have cAbove : 48 ≤ c.toNat := cDigit.1
  have dAbove : 48 ≤ d.toNat := dDigit.1
  rcases Nat.lt_trichotomy c.toNat d.toNat with smaller | same | greater
  · exact .inl smaller
  · obtain rfl : c = d := Char.toNat_inj.mp same
    exact .inr ⟨rfl, by omega⟩
  · -- a greater first digit outweighs every rest
    have step : d.toNat - '0'.toNat + 1 ≤ c.toNat - '0'.toNat := by omega
    have scaled := Nat.mul_le_mul_left (10 ^ second.length) step
    simp only [Nat.mul_add, Nat.mul_one] at scaled
    omega

/-- Digits of the same length are ordered as their values are. -/
theorem append_lt_append {first second : List Char} (restFirst restSecond : List Char)
    (digitsFirst : ∀ c ∈ first, c.isDigit = true) (digitsSecond : ∀ c ∈ second, c.isDigit = true)
    (sameLength : first.length = second.length)
    (less : Nat.ofDigitChars 10 first 0 < Nat.ofDigitChars 10 second 0) :
    first ++ restFirst < second ++ restSecond := by
  induction first generalizing second with
  | nil =>
      cases second with
      | nil => exact absurd less (Nat.lt_irrefl _)
      | cons d second => cases sameLength
  | cons c first ih =>
      cases second with
      | nil => cases sameLength
      | cons d second =>
          have lengths : first.length = second.length := Nat.succ.inj sameLength
          have digitsFirst' := fun x member => digitsFirst x (List.mem_cons_of_mem c member)
          have digitsSecond' := fun x member => digitsSecond x (List.mem_cons_of_mem d member)
          rw [List.cons_append, List.cons_append, List.cons_lt_cons_iff]
          rcases digit_le_of_value_le (digitsFirst c List.mem_cons_self)
            (digitsSecond d List.mem_cons_self) digitsFirst' digitsSecond' lengths less with
            smaller | ⟨rfl, rest⟩
          · exact .inl smaller
          · exact .inr ⟨rfl, ih digitsFirst' digitsSecond' lengths rest⟩

/-- **Texts that start with numbers of one length** are ordered as these numbers. -/
theorem lt_of_number_lt {first second : List Char}
    (sameLength : (digits first).length = (digits second).length)
    (less : number first < number second) : first < second := by
  have split : ∀ text : List Char, digits text ++ text.dropWhile Char.isDigit = text :=
    fun text => List.takeWhile_append_dropWhile
  rw [← split first, ← split second]
  exact append_lt_append _ _ (fun _ => isDigit_of_mem_digits) (fun _ => isDigit_of_mem_digits)
    sameLength less

/-- In the order of their texts, numbers of one length do not decrease. -/
theorem number_le_of_le {first second : String}
    (sameLength : (digits first.toList).length = (digits second.toList).length)
    (le : first ≤ second) : number first.toList ≤ number second.toList := by
  by_contra greater
  rw [not_le] at greater
  exact absurd (lt_of_number_lt sameLength.symm greater)
    (not_lt.mpr (String.le_iff_toList_le.mp le))

end DawnPatrol.Foundation.Decimal

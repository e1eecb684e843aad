import Mathlib.Data.List.Basic

/-!
# Strings and their runes

A string is a sequence of bytes, and mostly holds a text in UTF-8. Ranging over a
string yields its runes: the characters of the text, and `RuneError` for each byte
that is no part of one (`runes`). The runes of a text in UTF-8 are the text
(`runes_utf8`).
-/

set_option autoImplicit false

namespace DawnPatrol.Go

/-- The bytes of a string or a slice. -/
abbrev Bytes := List UInt8

/-- A text in UTF-8. -/
def utf8 (text : List Char) : Bytes := text.flatMap String.utf8EncodeChar

/-- `utf8.RuneError`. -/
def runeError : Char := '\uFFFD'

/-- `utf8.DecodeRune`: the first rune, with its size. -/
def decodeRune (bytes : Bytes) : Char × ℕ :=
  match bytes.toByteArray.utf8DecodeChar? 0 with
  | some r => (r, r.utf8Size)
  | none => (runeError, 1)

/-- The runes behind some bytes. -/
def runesAfter : ℕ → Bytes → List Char
  | _, [] => []
  | 0, b :: bytes =>
      let first := decodeRune (b :: bytes)
      first.1 :: runesAfter (first.2 - 1) bytes
  | n + 1, _ :: bytes => runesAfter n bytes

/-- What ranging over a string yields. -/
def runes (bytes : Bytes) : List Char := runesAfter 0 bytes

theorem runesAfter_length (skipped rest : Bytes) :
    runesAfter skipped.length (skipped ++ rest) = runes rest := by
  induction skipped with
  | nil => rfl
  | cons b skipped ih => exact ih

theorem decodeRune_utf8 (c : Char) (rest : Bytes) :
    decodeRune (String.utf8EncodeChar c ++ rest) = (c, c.utf8Size) := by
  rw [decodeRune, List.toByteArray_append, ByteArray.utf8DecodeChar?_utf8EncodeChar_append]

/-- The first character of a text is its first rune. -/
theorem runes_utf8EncodeChar (c : Char) (rest : Bytes) :
    runes (String.utf8EncodeChar c ++ rest) = c :: runes rest := by
  have decoded := decodeRune_utf8 c rest
  have size := String.length_utf8EncodeChar c
  cases bytes : String.utf8EncodeChar c with
  | nil =>
      rw [bytes] at size
      exact absurd size.symm (Nat.ne_of_gt c.utf8Size_pos)
  | cons b more =>
      rw [bytes] at decoded size
      rw [List.cons_append, runes, runesAfter, ← List.cons_append, decoded, ← size]
      exact congrArg _ (runesAfter_length more rest)

/-- **The runes of a text** are its characters. -/
theorem runes_utf8 (text : List Char) : runes (utf8 text) = text := by
  induction text with
  | nil => rfl
  | cons c text ih =>
      rw [utf8, List.flatMap_cons, runes_utf8EncodeChar]
      exact congrArg _ ih

/-- A byte that is no part of a character. -/
example : runes [0x61, 0xBD, 0x62] = ['a', runeError, 'b'] := by decide

end DawnPatrol.Go

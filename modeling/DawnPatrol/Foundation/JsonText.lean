import Mathlib.Algebra.Group.Nat.Even
import Mathlib.Data.Int.Order.Basic
import Mathlib.Data.List.Basic

/-!
# JSON text

JSON values whose numbers are integers, their text without white space, and a
reader that accepts white space between the tokens. How characters are escaped
is left to an `Escaping`, which proves that the reader undoes it. Reading the
text of a value gives the value back (`read_text`).

The reader recurses on fuel. The length of the text is enough of it, because
every call of the reader consumes a character (`readValue_text`).
-/

set_option autoImplicit false

namespace DawnPatrol.Foundation

/-- A JSON value whose numbers are integers. -/
inductive Json where
  | null
  | bool (value : Bool)
  | number (value : ℤ)
  | string (characters : List Char)
  | array (items : List Json)
  | object (members : List (List Char × Json))

namespace Json

/-! ## Reading characters -/

/-- The character a surrogate half or a pair that does not fit is read as. -/
def replacement : Char := '\uFFFD'

/-- The value of a hexadecimal digit. -/
def hexValue (c : Char) : Option ℕ :=
  if c.isDigit then some (c.toNat - '0'.toNat)
  else if 'a' ≤ c ∧ c ≤ 'f' then some (c.toNat - 'a'.toNat + 10)
  else if 'A' ≤ c ∧ c ≤ 'F' then some (c.toNat - 'A'.toNat + 10)
  else none

/-- Four hexadecimal digits. -/
def readCode : List Char → Option (ℕ × List Char)
  | a :: b :: c :: d :: rest => do
      let a ← hexValue a
      let b ← hexValue b
      let c ← hexValue c
      let d ← hexValue d
      return (((a * 16 + b) * 16 + c) * 16 + d, rest)
  | _ => none

/-- The character after a backslash, unless it is a `u`. -/
def unescape (c : Char) : Option Char :=
  if c = '"' ∨ c = '\\' ∨ c = '/' then some c
  else if c = 'b' then some '\x08'
  else if c = 'f' then some '\x0c'
  else if c = 'n' then some '\n'
  else if c = 'r' then some '\r'
  else if c = 't' then some '\t'
  else none

/-- The character of a code, with the text after it. A code of a surrogate half
makes a character with the other half that follows it. -/
def readCoded (code : ℕ) (rest : List Char) : Option (Char × List Char) :=
  if 0xD800 ≤ code ∧ code < 0xE000 then
    match rest with
    | '\\' :: 'u' :: more => do
        let (low, after) ← readCode more
        if code < 0xDC00 ∧ 0xDC00 ≤ low ∧ low < 0xE000 then
          return (Char.ofNat (0x10000 + (code - 0xD800) * 0x400 + (low - 0xDC00)), after)
        else return (replacement, rest)
    | _ => some (replacement, rest)
  else some (Char.ofNat code, rest)

/-- One character of a string, escaped or not. -/
def readChar : List Char → Option (Char × List Char)
  | [] => none
  | c :: rest =>
      if c = '\\' then
        match rest with
        | 'u' :: digits => do
            let (code, after) ← readCode digits
            readCoded code after
        | escaped :: after => (unescape escaped).map fun c => (c, after)
        | [] => none
      else if c = '"' ∨ c.toNat < 0x20 then none
      else some (c, rest)

/-- The characters up to the closing quote. -/
def readString : ℕ → List Char → Option (List Char × List Char)
  | 0, _ => none
  | fuel + 1, text =>
      match text with
      | '"' :: rest => some ([], rest)
      | _ => do
          let (c, rest) ← readChar text
          let (characters, rest) ← readString fuel rest
          return (c :: characters, rest)

/-! ## Escaping -/

/-- A way to escape characters that the reader undoes. -/
structure Escaping where
  escape : Char → List Char
  reads : ∀ c rest, readChar (escape c ++ rest) = some (c, rest)

namespace Escaping

variable (escaping : Escaping)

/-- An escaped character starts neither with a closing quote nor with the end. -/
theorem escape_starts (c : Char) :
    ∃ first more, escaping.escape c = first :: more ∧ first ≠ '"' := by
  cases escaped : escaping.escape c with
  | nil =>
      have impossible := escaping.reads c []
      rw [escaped] at impossible
      cases impossible
  | cons first more =>
      refine ⟨first, more, rfl, ?_⟩
      rintro rfl
      have impossible := escaping.reads c []
      rw [escaped] at impossible
      simp [readChar] at impossible

/-- The characters of a string and its closing quote are read back. -/
theorem readString_escape (characters rest : List Char) {fuel : ℕ}
    (enough : characters.length < fuel) :
    readString fuel (characters.flatMap escaping.escape ++ '"' :: rest) =
      some (characters, rest) := by
  induction characters generalizing fuel with
  | nil =>
      obtain ⟨fuel, rfl⟩ := Nat.exists_eq_succ_of_ne_zero (Nat.ne_zero_of_lt enough)
      rfl
  | cons c characters ih =>
      obtain ⟨fuel, rfl⟩ := Nat.exists_eq_succ_of_ne_zero (Nat.ne_zero_of_lt enough)
      obtain ⟨first, more, escaped, ne⟩ := escaping.escape_starts c
      have read := escaping.reads c (characters.flatMap escaping.escape ++ '"' :: rest)
      rw [List.flatMap_cons, List.append_assoc]
      rw [escaped, List.cons_append] at read ⊢
      simp only [readString]
      split
      · rename_i quote
        exact absurd (List.cons.inj quote).1 ne
      · rw [read]
        simp [ih (Nat.lt_of_succ_lt_succ enough)]

theorem length_le_flatMap (characters : List Char) :
    characters.length ≤ (characters.flatMap escaping.escape).length := by
  induction characters with
  | nil => simp
  | cons c characters ih =>
      obtain ⟨first, more, escaped, -⟩ := escaping.escape_starts c
      rw [List.flatMap_cons, List.length_append, escaped]
      simp only [List.length_cons]
      omega

end Escaping

/-! ## Numbers -/

/-- The digits of a natural number. A zero stands alone. -/
def readNat (text : List Char) : Option (ℕ × List Char) :=
  let digits := text.takeWhile Char.isDigit
  if digits = [] ∨ (digits.head? = some '0' ∧ digits ≠ ['0']) then none
  else some (Nat.ofDigitChars 10 digits 0, text.dropWhile Char.isDigit)

/-- An integer. A fraction or an exponent is left to what follows. -/
def readInt : List Char → Option (ℤ × List Char)
  | '-' :: text => (readNat text).map fun read => (-(read.1 : ℤ), read.2)
  | text => (readNat text).map fun read => ((read.1 : ℤ), read.2)

/-- The text of an integer. -/
def intText (value : ℤ) : List Char :=
  if value < 0 then '-' :: Nat.toDigits 10 value.natAbs else Nat.toDigits 10 value.natAbs

/-- What follows a number is not a digit. -/
def EndsNumber (rest : List Char) : Prop := ∀ c ∈ rest.head?, c.isDigit = false

theorem isDigit_of_mem_toDigits (n : ℕ) {c : Char} (member : c ∈ Nat.toDigits 10 n) :
    c.isDigit = true :=
  Nat.isDigit_of_mem_toDigits (by decide) (by decide) member

/-- Digits that are followed by something else are read as a whole. -/
theorem takeWhile_digits {digits rest : List Char} (all : ∀ c ∈ digits, c.isDigit = true)
    (ends : EndsNumber rest) :
    (digits ++ rest).takeWhile Char.isDigit = digits ∧
      (digits ++ rest).dropWhile Char.isDigit = rest := by
  have stops : rest.takeWhile Char.isDigit = [] ∧ rest.dropWhile Char.isDigit = rest := by
    cases rest with
    | nil => simp
    | cons c rest =>
        have other : c.isDigit = false := ends c rfl
        simp [other]
  rw [List.takeWhile_append_of_pos all, List.dropWhile_append_of_pos all, stops.1, stops.2,
    List.append_nil]
  exact ⟨rfl, rfl⟩

/-- The value of some digits is less than the power of ten with as many zeros. -/
theorem ofDigitChars_lt {digits : List Char} (all : ∀ c ∈ digits, c.isDigit = true) :
    Nat.ofDigitChars 10 digits 0 < 10 ^ digits.length := by
  induction digits with
  | nil => simp
  | cons c digits ih =>
      have rest := ih fun c member => all c (List.mem_cons_of_mem _ member)
      have digit : c.toNat - '0'.toNat ≤ 9 := by
        have isDigit := all c List.mem_cons_self
        simp only [Char.isDigit, Bool.and_eq_true, decide_eq_true_eq, ge_iff_le,
          UInt32.le_iff_toNat_le] at isDigit
        have above : c.toNat ≤ 57 := isDigit.2
        have zero : '0'.toNat = 48 := rfl
        omega
      rw [Nat.ofDigitChars_cons, Nat.ofDigitChars_eq_ofDigitChars_zero, List.length_cons,
        Nat.pow_succ]
      have scaled := Nat.mul_le_mul_left (10 ^ digits.length) digit
      simp only [Nat.mul_zero, Nat.zero_add]
      omega

/-- Only zero is written with a leading zero, and alone. -/
theorem toDigits_eq_zero {n : ℕ} (leading : (Nat.toDigits 10 n).head? = some '0') :
    Nat.toDigits 10 n = ['0'] := by
  cases digits : Nat.toDigits 10 n with
  | nil => exact absurd digits Nat.toDigits_ne_nil
  | cons c rest =>
      rw [digits] at leading
      obtain rfl : c = '0' := by simpa using leading
      cases rest with
      | nil => rfl
      | cons second more =>
          have value : Nat.ofDigitChars 10 (second :: more) 0 = n := by
            have whole := @Nat.ofDigitChars_ten_toDigits n
            rw [digits, Nat.ofDigitChars_cons] at whole
            exact whole
          have small := @ofDigitChars_lt (second :: more) fun d member =>
            isDigit_of_mem_toDigits n (digits ▸ List.mem_cons_of_mem _ member)
          rw [value] at small
          have short := (Nat.length_toDigits_le_iff (by decide) (by simp)).mpr small
          rw [digits] at short
          simp only [List.length_cons] at short
          omega

theorem readNat_toDigits (n : ℕ) {rest : List Char} (ends : EndsNumber rest) :
    readNat (Nat.toDigits 10 n ++ rest) = some (n, rest) := by
  obtain ⟨taken, dropped⟩ := takeWhile_digits (fun _ => isDigit_of_mem_toDigits n) ends
  have valid : ¬ (Nat.toDigits 10 n = [] ∨
      ((Nat.toDigits 10 n).head? = some '0' ∧ Nat.toDigits 10 n ≠ ['0'])) := by
    rintro (nothing | ⟨leading, more⟩)
    · exact Nat.toDigits_ne_nil nothing
    · exact more (toDigits_eq_zero leading)
  simp only [readNat, taken, dropped, if_neg valid, Nat.ofDigitChars_ten_toDigits]

/-- The text of an integer is read back. -/
theorem readInt_intText (value : ℤ) {rest : List Char} (ends : EndsNumber rest) :
    readInt (intText value ++ rest) = some (value, rest) := by
  unfold intText
  split
  · rename_i negative
    simp only [List.cons_append, readInt, readNat_toDigits _ ends, Option.map_some]
    rw [Int.ofNat_natAbs_of_nonpos (Int.le_of_lt negative), Int.neg_neg]
  · rename_i positive
    have digits := readNat_toDigits value.natAbs ends
    have starts : ∀ text, Nat.toDigits 10 value.natAbs ++ rest ≠ '-' :: text := by
      intro text same
      cases split : Nat.toDigits 10 value.natAbs with
      | nil => exact Nat.toDigits_ne_nil split
      | cons c more =>
          rw [split] at same
          obtain rfl : c = '-' := (List.cons.inj same).1
          have digit := isDigit_of_mem_toDigits value.natAbs (split ▸ List.mem_cons_self)
          exact absurd digit (by decide)
    unfold readInt
    split
    · rename_i text same
      exact absurd same (starts text)
    · rw [digits, Option.map_some, Int.natAbs_of_nonneg (Int.not_lt.mp positive)]

/-- The text of an integer starts with a minus sign or a digit. -/
theorem intText_starts (value : ℤ) :
    ∃ c more, intText value = c :: more ∧ (c = '-' ∨ c.isDigit = true) := by
  unfold intText
  split
  · exact ⟨'-', _, rfl, .inl rfl⟩
  · cases digits : Nat.toDigits 10 value.natAbs with
    | nil => exact absurd digits Nat.toDigits_ne_nil
    | cons c more =>
        exact ⟨c, more, rfl,
          .inr (isDigit_of_mem_toDigits value.natAbs (digits ▸ List.mem_cons_self))⟩

/-! ## Values -/

/-- White space between tokens. -/
def isSpace (c : Char) : Bool := c == ' ' || c == '\t' || c == '\n' || c == '\r'

/-- The text after white space. -/
def skipSpace (text : List Char) : List Char := text.dropWhile isSpace

mutual

/-- A value. -/
def readValue : ℕ → List Char → Option (Json × List Char)
  | 0, _ => none
  | fuel + 1, text =>
      match skipSpace text with
      | 'n' :: 'u' :: 'l' :: 'l' :: rest => some (null, rest)
      | 't' :: 'r' :: 'u' :: 'e' :: rest => some (bool true, rest)
      | 'f' :: 'a' :: 'l' :: 's' :: 'e' :: rest => some (bool false, rest)
      | '"' :: rest => (readString text.length rest).map fun read => (string read.1, read.2)
      | '[' :: rest =>
          match skipSpace rest with
          | ']' :: rest => some (array [], rest)
          | _ => do
              let (item, rest) ← readValue fuel rest
              let (items, rest) ← readItems fuel rest
              return (array (item :: items), rest)
      | '{' :: rest =>
          match skipSpace rest with
          | '}' :: rest => some (object [], rest)
          | _ => do
              let (member, rest) ← readMember fuel rest
              let (members, rest) ← readMembers fuel rest
              return (object (member :: members), rest)
      | text => (readInt text).map fun read => (number read.1, read.2)

/-- The items after the first, and the closing bracket. -/
def readItems : ℕ → List Char → Option (List Json × List Char)
  | 0, _ => none
  | fuel + 1, text =>
      match skipSpace text with
      | ']' :: rest => some ([], rest)
      | ',' :: rest => do
          let (item, rest) ← readValue fuel rest
          let (items, rest) ← readItems fuel rest
          return (item :: items, rest)
      | _ => none

/-- A key with its value. -/
def readMember : ℕ → List Char → Option ((List Char × Json) × List Char)
  | 0, _ => none
  | fuel + 1, text =>
      match skipSpace text with
      | '"' :: rest => do
          let (key, rest) ← readString text.length rest
          match skipSpace rest with
          | ':' :: rest => do
              let (value, rest) ← readValue fuel rest
              return ((key, value), rest)
          | _ => none
      | _ => none

/-- The members after the first, and the closing brace. -/
def readMembers : ℕ → List Char → Option (List (List Char × Json) × List Char)
  | 0, _ => none
  | fuel + 1, text =>
      match skipSpace text with
      | '}' :: rest => some ([], rest)
      | ',' :: rest => do
          let (member, rest) ← readMember fuel rest
          let (members, rest) ← readMembers fuel rest
          return (member :: members, rest)
      | _ => none

end

/-- A text that is one value. -/
def read (text : List Char) : Option Json :=
  match readValue text.length text with
  | some (value, rest) => if skipSpace rest = [] then some value else none
  | none => none

/-! ## The text of a value -/

section Text

variable (escaping : Escaping)

/-- The text of a string, between quotes. -/
def stringText (characters : List Char) : List Char :=
  '"' :: (characters.flatMap escaping.escape ++ ['"'])

mutual

/-- The text of a value. -/
def text : Json → List Char
  | null => "null".toList
  | bool true => "true".toList
  | bool false => "false".toList
  | number value => intText value
  | string characters => stringText escaping characters
  | array [] => ['[', ']']
  | array (item :: items) => '[' :: (item.text ++ itemsText items)
  | object [] => ['{', '}']
  | object ((key, value) :: members) =>
      '{' :: (stringText escaping key ++ ':' :: (value.text ++ membersText members))

/-- The text of the items after the first. -/
def itemsText : List Json → List Char
  | [] => [']']
  | item :: items => ',' :: (item.text ++ itemsText items)

/-- The text of the members after the first. -/
def membersText : List (List Char × Json) → List Char
  | [] => ['}']
  | (key, value) :: members =>
      ',' :: (stringText escaping key ++ ':' :: (value.text ++ membersText members))

end

/-! ## Characters of a text -/

mutual

/-- The strings and the keys of a value. -/
def strings : Json → List (List Char)
  | string characters => [characters]
  | array items => itemsStrings items
  | object members => membersStrings members
  | _ => []

/-- The strings and the keys of some values. -/
def itemsStrings : List Json → List (List Char)
  | [] => []
  | item :: items => item.strings ++ itemsStrings items

/-- The strings and the keys of some members. -/
def membersStrings : List (List Char × Json) → List (List Char)
  | [] => []
  | (key, value) :: members => key :: (value.strings ++ membersStrings members)

end

/-- A character that stands in a text only where it stands in a string. -/
structure Escaping.Keeps (c : Char) : Prop where
  escape : ∀ d, c ∈ escaping.escape d ↔ c = d
  outside : c ∉ "nul true false -[]:,\"\x7b\x7d".toList
  digit : c.isDigit = false

namespace Escaping.Keeps

variable {escaping} {c : Char} (keeps : escaping.Keeps c)
include keeps

theorem not_mem_word {word : List Char}
    (plain : word ⊆ "nul true false -[]:,\"\x7b\x7d".toList) : c ∉ word :=
  fun member => keeps.outside (plain member)

theorem ne_of_outside {d : Char} (plain : d ∈ "nul true false -[]:,\"\x7b\x7d".toList) : c ≠ d :=
  fun same => keeps.outside (same ▸ plain)

theorem mem_stringText (characters : List Char) :
    c ∈ stringText escaping characters ↔ c ∈ characters := by
  have quote := keeps.ne_of_outside (show '"' ∈ _ by decide)
  simp [stringText, List.mem_flatMap, keeps.escape, quote]

theorem not_mem_intText (value : ℤ) : c ∉ intText value := by
  have minus := keeps.ne_of_outside (show '-' ∈ _ by decide)
  have digits : c ∉ Nat.toDigits 10 value.natAbs := fun member => by
    have digit := isDigit_of_mem_toDigits value.natAbs member
    rw [keeps.digit] at digit
    cases digit
  unfold intText
  split <;> simp [minus, digits]

mutual

/-- **Where a character of a text comes from.** -/
theorem mem_text : ∀ value : Json,
    c ∈ value.text escaping ↔ ∃ characters ∈ value.strings, c ∈ characters
  | null => by
      have word : c ∉ "null".toList := keeps.not_mem_word (by decide)
      simp only [text, strings, word, List.not_mem_nil, false_and, exists_false]
  | bool true => by
      have word : c ∉ "true".toList := keeps.not_mem_word (by decide)
      simp only [text, strings, word, List.not_mem_nil, false_and, exists_false]
  | bool false => by
      have word : c ∉ "false".toList := keeps.not_mem_word (by decide)
      simp only [text, strings, word, List.not_mem_nil, false_and, exists_false]
  | number value => by simp [text, strings, keeps.not_mem_intText]
  | string characters => by simp [text, strings, keeps.mem_stringText]
  | array [] => by
      have word : c ∉ ['[', ']'] := keeps.not_mem_word (by decide)
      simp only [text, strings, itemsStrings, word, List.not_mem_nil, false_and, exists_false]
  | array (item :: items) => by
      have opens := keeps.ne_of_outside (show '[' ∈ _ by decide)
      simp [text, strings, itemsStrings, opens, mem_text item, mem_itemsText items,
        or_and_right, exists_or]
  | object [] => by
      have word : c ∉ ['{', '}'] := keeps.not_mem_word (by decide)
      simp only [text, strings, membersStrings, word, List.not_mem_nil, false_and, exists_false]
  | object ((key, value) :: members) => by
      have opens := keeps.ne_of_outside (show '{' ∈ _ by decide)
      have colon := keeps.ne_of_outside (show ':' ∈ _ by decide)
      simp [text, strings, membersStrings, opens, colon, keeps.mem_stringText, mem_text value,
        mem_membersText members, or_and_right, exists_or]

theorem mem_itemsText : ∀ items : List Json,
    c ∈ itemsText escaping items ↔ ∃ characters ∈ itemsStrings items, c ∈ characters
  | [] => by
      have word : c ∉ [']'] := keeps.not_mem_word (by decide)
      simp only [itemsText, itemsStrings, word, List.not_mem_nil, false_and, exists_false]
  | item :: items => by
      have comma := keeps.ne_of_outside (show ',' ∈ _ by decide)
      simp [itemsText, itemsStrings, comma, mem_text item, mem_itemsText items, or_and_right,
        exists_or]

theorem mem_membersText : ∀ members : List (List Char × Json),
    c ∈ membersText escaping members ↔ ∃ characters ∈ membersStrings members, c ∈ characters
  | [] => by
      have word : c ∉ ['}'] := keeps.not_mem_word (by decide)
      simp only [membersText, membersStrings, word, List.not_mem_nil, false_and, exists_false]
  | (key, value) :: members => by
      have comma := keeps.ne_of_outside (show ',' ∈ _ by decide)
      have colon := keeps.ne_of_outside (show ':' ∈ _ by decide)
      simp [membersText, membersStrings, comma, colon, keeps.mem_stringText, mem_text value,
        mem_membersText members, or_and_right, exists_or]

end

end Escaping.Keeps

/-! ## Reading a text back -/

theorem isSpace_of_number {c : Char} (number : c = '-' ∨ c.isDigit = true) :
    isSpace c = false := by
  by_contra space
  simp only [Bool.not_eq_false, isSpace, Bool.or_eq_true, beq_iff_eq] at space
  rcases space with ((rfl | rfl) | rfl) | rfl <;> exact absurd number (by decide)

/-- The first character of a text is no white space and closes nothing. -/
theorem text_starts (value : Json) :
    ∃ c more, value.text escaping = c :: more ∧ isSpace c = false ∧ c ≠ ']' := by
  cases value with
  | null => exact ⟨'n', _, by rw [text]; rfl, by decide, by decide⟩
  | bool value => cases value <;> exact ⟨_, _, by rw [text]; rfl, by decide, by decide⟩
  | string characters => exact ⟨'"', _, by rw [text, stringText], by decide, by decide⟩
  | array items => cases items <;> exact ⟨'[', _, by rw [text], by decide, by decide⟩
  | object members => rcases members with _ | ⟨⟨key, value⟩, members⟩ <;>
      exact ⟨'{', _, by rw [text], by decide, by decide⟩
  | number value =>
      rw [text]
      obtain ⟨c, more, starts, other⟩ := intText_starts value
      refine ⟨c, more, starts, isSpace_of_number other, ?_⟩
      rintro rfl
      exact other.elim (by decide) (by decide)

theorem skipSpace_of_cons {c : Char} (solid : isSpace c = false) (rest : List Char) :
    skipSpace (c :: rest) = c :: rest := by
  simp [skipSpace, solid]

/-- Text that starts no other value is read as a number. -/
theorem readValue_number {text : List Char} {c : Char} {more : List Char}
    (starts : text = c :: more) (other : c = '-' ∨ c.isDigit = true) (fuel : ℕ) :
    readValue (fuel + 1) text = (readInt text).map fun read => (number read.1, read.2) := by
  have solid := isSpace_of_number other
  have differs : ∀ d : Char, d ≠ '-' → d.isDigit = false → c ≠ d := by
    rintro d notMinus notDigit rfl
    rcases other with minus | digit
    · exact notMinus minus
    · exact absurd digit (by simp [notDigit])
  subst starts
  rw [readValue, skipSpace_of_cons solid]
  split
  all_goals first
    | rfl
    | (rename_i same
       exact absurd (List.cons.inj same).1 (differs _ (by decide) (by decide)))

theorem endsNumber_itemsText (items : List Json) (rest : List Char) :
    EndsNumber (itemsText escaping items ++ rest) := by
  cases items <;> simp [itemsText, EndsNumber]

theorem endsNumber_membersText (members : List (List Char × Json)) (rest : List Char) :
    EndsNumber (membersText escaping members ++ rest) := by
  rcases members with _ | ⟨⟨key, value⟩, members⟩ <;> simp [membersText, EndsNumber]

/-- A key is read back, with the colon and the value. -/
theorem readMember_of_value (key : List Char) {fuel : ℕ} {after rest : List Char} {value : Json}
    (read : readValue fuel after = some (value, rest)) :
    readMember (fuel + 1) (stringText escaping key ++ ':' :: after) =
      some ((key, value), rest) := by
  have enough : key.length < (stringText escaping key ++ ':' :: after).length := by
    have := escaping.length_le_flatMap key
    simp only [stringText, List.length_append, List.length_cons, List.length_nil]
    omega
  have keyRead := escaping.readString_escape key (':' :: after) enough
  have opens : stringText escaping key ++ ':' :: after =
      '"' :: (key.flatMap escaping.escape ++ '"' :: ':' :: after) := by
    simp [stringText]
  rw [opens] at keyRead ⊢
  rw [readMember, skipSpace_of_cons (by decide)]
  simp only [keyRead, Option.bind_eq_bind, Option.bind_some, skipSpace_of_cons (show isSpace ':' =
    false by decide), read]
  rfl

mutual

/-- **The text of a value is read back**, whatever follows it, as long as a number
is not continued. -/
theorem readValue_text : ∀ (value : Json) (fuel : ℕ) (rest : List Char),
    (value.text escaping).length ≤ fuel → EndsNumber rest →
      readValue fuel (value.text escaping ++ rest) = some (value, rest)
  | null, 0, _, enough, _ => by simp [text] at enough
  | null, fuel + 1, rest, _, _ => by
      rw [text, readValue]
      rfl
  | bool true, 0, _, enough, _ => by simp [text] at enough
  | bool true, fuel + 1, rest, _, _ => by
      rw [text, readValue]
      rfl
  | bool false, 0, _, enough, _ => by simp [text] at enough
  | bool false, fuel + 1, rest, _, _ => by
      rw [text, readValue]
      rfl
  | number value, fuel, rest, enough, ends => by
      obtain ⟨c, more, starts, other⟩ := intText_starts value
      rw [text] at enough ⊢
      obtain ⟨fuel, rfl⟩ : ∃ less, fuel = less + 1 := by
        rw [starts, List.length_cons] at enough
        exact ⟨fuel - 1, by omega⟩
      have whole : intText value ++ rest = c :: (more ++ rest) := by rw [starts, List.cons_append]
      rw [readValue_number whole other, readInt_intText value ends]
      rfl
  | string characters, 0, _, enough, _ => by simp [text, stringText] at enough
  | string characters, fuel + 1, rest, _, _ => by
      have opens : stringText escaping characters ++ rest =
          '"' :: (characters.flatMap escaping.escape ++ '"' :: rest) := by
        simp [stringText]
      have long : characters.length <
          ('"' :: (characters.flatMap escaping.escape ++ '"' :: rest)).length := by
        have := escaping.length_le_flatMap characters
        simp only [List.length_append, List.length_cons]
        omega
      rw [text, opens, readValue, skipSpace_of_cons (by decide)]
      simp only [escaping.readString_escape characters rest long, Option.map_some]
  | array [], 0, _, enough, _ => by simp [text] at enough
  | array [], fuel + 1, rest, _, _ => by
      rw [text, readValue]
      rfl
  | array (item :: items), 0, _, enough, _ => by simp [text] at enough
  | array (item :: items), fuel + 1, rest, enough, _ => by
      rw [text] at enough ⊢
      simp only [List.length_cons, List.length_append] at enough
      have first := readValue_text item fuel (itemsText escaping items ++ rest)
        (by omega) (endsNumber_itemsText escaping items rest)
      have others := readItems_text items fuel rest (by omega)
      obtain ⟨c, more, starts, solid, opens⟩ := text_starts escaping item
      rw [starts, List.cons_append] at first
      rw [starts, List.cons_append, List.cons_append, List.cons_append, List.append_assoc,
        readValue, skipSpace_of_cons (by decide)]
      simp only [skipSpace_of_cons solid]
      split
      · rename_i closes
        exact absurd (List.cons.inj closes).1 opens
      · simp only [first, others, Option.bind_eq_bind, Option.bind_some]
        rfl
  | object [], 0, _, enough, _ => by simp [text] at enough
  | object [], fuel + 1, rest, _, _ => by
      rw [text, readValue]
      rfl
  | object ((key, value) :: members), fuel, rest, enough, _ => by
      rw [text] at enough ⊢
      simp only [List.length_cons, List.length_append, stringText] at enough
      obtain ⟨fuel, rfl⟩ : ∃ less, fuel = less + 2 := ⟨fuel - 2, by omega⟩
      have first := readMember_of_value escaping key (readValue_text value fuel
        (membersText escaping members ++ rest) (by omega)
        (endsNumber_membersText escaping members rest))
      have others := readMembers_text members (fuel + 1) rest (by omega)
      rw [stringText, List.cons_append] at first
      rw [stringText, List.cons_append, List.cons_append, List.cons_append, readValue,
        skipSpace_of_cons (by decide)]
      simp only [List.append_assoc, List.cons_append, List.nil_append] at first ⊢
      simp only [skipSpace_of_cons (show isSpace '"' = false by decide), first, others,
        Option.bind_eq_bind, Option.bind_some]
      rfl

/-- The items after the first are read back. -/
theorem readItems_text : ∀ (items : List Json) (fuel : ℕ) (rest : List Char),
    (itemsText escaping items).length ≤ fuel →
      readItems fuel (itemsText escaping items ++ rest) = some (items, rest)
  | [], 0, _, enough => by simp [itemsText] at enough
  | [], fuel + 1, rest, _ => by
      rw [itemsText, readItems]
      rfl
  | item :: items, 0, _, enough => by simp [itemsText] at enough
  | item :: items, fuel + 1, rest, enough => by
      rw [itemsText] at enough ⊢
      simp only [List.length_cons, List.length_append] at enough
      have first := readValue_text item fuel (itemsText escaping items ++ rest)
        (by omega) (endsNumber_itemsText escaping items rest)
      have others := readItems_text items fuel rest (by omega)
      rw [List.cons_append, List.append_assoc, readItems, skipSpace_of_cons (by decide)]
      simp only [first, others, Option.bind_eq_bind, Option.bind_some]
      rfl

/-- The members after the first are read back. -/
theorem readMembers_text : ∀ (members : List (List Char × Json)) (fuel : ℕ) (rest : List Char),
    (membersText escaping members).length ≤ fuel →
      readMembers fuel (membersText escaping members ++ rest) = some (members, rest)
  | [], 0, _, enough => by simp [membersText] at enough
  | [], fuel + 1, rest, _ => by
      rw [membersText, readMembers]
      rfl
  | (key, value) :: members, fuel, rest, enough => by
      rw [membersText] at enough ⊢
      simp only [List.length_cons, List.length_append, stringText] at enough
      obtain ⟨fuel, rfl⟩ : ∃ less, fuel = less + 2 := ⟨fuel - 2, by omega⟩
      have first := readMember_of_value escaping key (readValue_text value fuel
        (membersText escaping members ++ rest) (by omega)
        (endsNumber_membersText escaping members rest))
      have others := readMembers_text members (fuel + 1) rest (by omega)
      rw [List.cons_append, readMembers, skipSpace_of_cons (by decide)]
      simp only [List.append_assoc, List.cons_append] at first ⊢
      simp only [first, others, Option.bind_eq_bind, Option.bind_some]
      rfl

end

/-- **Reading the text of a value gives the value back.** -/
theorem read_text (value : Json) : read (value.text escaping) = some value := by
  have whole := readValue_text escaping value (value.text escaping).length [] (Nat.le_refl _)
    (by simp [EndsNumber])
  rw [List.append_nil] at whole
  rw [read, whole]
  rfl

end Text

end Json

end DawnPatrol.Foundation

import DawnPatrol.Http.EventJSON
import DawnPatrol.Logfmt.Decoder

/-!
# Reading back what was written

A spelling is read as the text that it spells, whatever pair follows it
(`scanKeyval_spelled`), so a line is read as its pairs (`keyvals_spelled`). A line
that spells pairs holds no control character, so lines stay apart and a text of
such lines is read as their pairs up to the first line that the scanner has no
room for (`records_spelled`).

A quote of `quoted` is closed by no escape, and the escapes are among those of
`encoding/json` (`escaping`), which the decoder undoes.
-/

set_option autoImplicit false

namespace DawnPatrol.Logfmt

open Foundation Go

/-! ## Escapes -/

/-- An escape is read as its character. -/
theorem readChar_escape (c : Char) (rest : List Char) :
    Json.readChar (escape c ++ rest) = some (c, rest) := by
  unfold escape
  split
  · rename_i marked
    rcases marked with rfl | rfl <;> rfl
  split
  · rename_i newline
    rw [newline]
    rfl
  split
  · rename_i return_
    rw [return_]
    rfl
  split
  · rename_i tab
    rw [tab]
    rfl
  split
  · rename_i control
    have high : c.toNat / 16 % 16 = c.toNat / 16 := Nat.mod_eq_of_lt (by omega)
    have read := @Http.readChar_escapeCode '0' '0' 0 c ⟨rfl, rfl⟩ (by omega) rest
    rw [Http.escapeCode, high] at read
    exact read
  split
  · rename_i none
    rw [none]
    exact @Http.readChar_escapeCode 'f' 'f' 0xff runeError ⟨rfl, rfl⟩ (by decide) rest
  · rename_i marked _ _ _ control _
    have unmarked : c ≠ '"' ∧ c ≠ '\\' := by
      simp only [not_or] at marked
      exact ⟨marked.2, marked.1⟩
    simp [Json.readChar, unmarked, control]

/-- The escapes are undone by the reader of JSON. -/
def escaping : Json.Escaping where
  escape := escape
  reads := readChar_escape

/-- What the reader of JSON reads is read here too. -/
theorem unquoteChar_of_readChar {text rest : List Char} {c : Char}
    (read : Json.readChar text = some (c, rest)) : unquoteChar text = some (c, rest) := by
  cases text with
  | nil => cases read
  | cons first more =>
      unfold Json.readChar at read
      unfold unquoteChar
      dsimp only at read ⊢
      split
      · rename_i backslash
        rw [if_pos backslash] at read
        split at read
        · exact read
        · rename_i letter after notCode
          obtain ⟨_, unescaped, same⟩ := Option.map_eq_some_iff.mp read
          have other : letter ≠ '\x27' := by
            rintro rfl
            cases unescaped
          simpa [unescape, other, notCode] using read
        · cases read
      · rename_i other
        rw [if_neg other] at read
        exact read

/-- **An escaped character is read back.** -/
theorem unquoteChar_escape (c : Char) (rest : List Char) :
    unquoteChar (escape c ++ rest) = some (c, rest) :=
  unquoteChar_of_readChar (escaping.reads c rest)

theorem unquoteFrom_cons {text rest : List Char} {c : Char}
    (read : unquoteChar text = some (c, rest)) :
    unquoteFrom text = (unquoteFrom rest).map (c :: ·) := by
  have nonempty : text ≠ [] := by
    rintro rfl
    cases read
  rw [unquoteFrom, if_neg nonempty]
  split
  · rename_i nothing
    rw [read] at nothing
    cases nothing
  · rename_i first more found
    rw [read] at found
    cases found
    rfl

/-- An escaped text is read back. -/
theorem unquoteFrom_escaped (text : List Char) : unquoteFrom (text.flatMap escape) = some text := by
  induction text with
  | nil => rw [List.flatMap_nil, unquoteFrom, if_pos rfl]
  | cons c text ih =>
      rw [List.flatMap_cons, unquoteFrom_cons (unquoteChar_escape c _), ih]
      rfl

theorem unquoteChar_usual {c : Char} (plain : usual c = true) (rest : List Char) :
    unquoteChar (c :: rest) = some (c, rest) := by
  simp only [usual, Bool.and_eq_true, bne_iff_ne, Bool.not_eq_true', decide_eq_false_iff_not]
    at plain
  obtain ⟨⟨⟨notBackslash, notQuote⟩, notControl⟩, -⟩ := plain
  simp [unquoteChar, notBackslash, notQuote, notControl]

/-- **The short way of `unquoteBytes` is its loop.** -/
theorem unquoteBytes_eq (text : List Char) : unquoteBytes text = unquoteFrom text := by
  induction text with
  | nil => rw [unquoteFrom, if_pos rfl, unquoteBytes, List.dropWhile_nil, if_pos rfl]
  | cons c text ih =>
      unfold unquoteBytes at ih ⊢
      by_cases plain : usual c = true
      · rw [unquoteFrom_cons (unquoteChar_usual plain text), ← ih]
        simp only [List.dropWhile_cons_of_pos plain, List.takeWhile_cons_of_pos plain]
        split
        · rfl
        · cases unquoteFrom (text.dropWhile usual) <;> rfl
      · simp only [List.dropWhile_cons_of_neg plain, List.takeWhile_cons_of_neg plain]
        cases unquoteFrom (c :: text) <;> rfl

/-! ## Quotes -/

/-- Whether a character is written as an escape. -/
def isEscaped (c : Char) : Bool := escape c != [c]

/-- A character that a scan of a quoted value neither stops at nor looks behind. -/
def passable (c : Char) : Bool := c != '\\' && c != '"'

theorem passable_digitChar : ∀ n < 16, passable (Nat.digitChar n) = true := by decide

/-- How a character is escaped: not at all, or as a backslash, a character and others
that are no part of an escape. -/
theorem escape_shape (c : Char) :
    (escape c = [c] ∧ passable c = true) ∨
      ∃ letter code, escape c = '\\' :: letter :: code ∧ code.all passable = true := by
  unfold escape
  split
  · exact .inr ⟨c, [], rfl, rfl⟩
  split
  · exact .inr ⟨'n', [], rfl, rfl⟩
  split
  · exact .inr ⟨'r', [], rfl, rfl⟩
  split
  · exact .inr ⟨'t', [], rfl, rfl⟩
  split
  · refine .inr ⟨'u', _, rfl, ?_⟩
    have high := passable_digitChar (c.toNat / 16) (by omega)
    have low := passable_digitChar (c.toNat % 16) (by omega)
    simp only [List.all_cons, List.all_nil, high, low]
    decide
  split
  · exact .inr ⟨'u', _, rfl, by decide⟩
  · rename_i marked _ _ _ _ _
    refine .inl ⟨rfl, ?_⟩
    simpa [passable] using marked

theorem scanQuoted_passable {text : List Char} (clear : text.all passable = true) (hasEsc : Bool)
    (rest : List Char) :
    scanQuoted hasEsc false (text ++ rest) =
      (scanQuoted hasEsc false rest).map fun read => (text ++ read.1, read.2) := by
  induction text with
  | nil => simp
  | cons c text ih =>
      rw [List.all_cons, Bool.and_eq_true] at clear
      have other : c ≠ '\\' ∧ c ≠ '"' := by simpa [passable] using clear.1
      rw [List.cons_append, scanQuoted, if_neg (by simp), if_neg other.1, if_neg other.2,
        ih clear.2, Option.map_map]
      rfl

/-- An escape is passed over, and noted. -/
theorem scanQuoted_escape (c : Char) (hasEsc : Bool) (rest : List Char) :
    scanQuoted hasEsc false (escape c ++ rest) =
      (scanQuoted (hasEsc || isEscaped c) false rest).map fun read =>
        (escape c ++ read.1, read.2) := by
  rcases escape_shape c with ⟨plain, clear⟩ | ⟨letter, code, escaped, clear⟩
  · have stays : isEscaped c = false := by simp [isEscaped, plain]
    rw [stays, Bool.or_false, plain]
    exact scanQuoted_passable (by simp [clear]) hasEsc rest
  · have noted : isEscaped c = true := by simp [isEscaped, escaped]
    rw [noted, Bool.or_true, escaped, List.cons_append, List.cons_append, scanQuoted,
      if_neg (by simp), if_pos rfl, scanQuoted, if_pos rfl, scanQuoted_passable clear true rest,
      Option.map_map, Option.map_map]
    rfl

/-- **A quoted text ends at its own quote.** -/
theorem scanQuoted_quoted (text : List Char) (hasEsc : Bool) (rest : List Char) :
    scanQuoted hasEsc false (text.flatMap escape ++ '"' :: rest) =
      some (text.flatMap escape, hasEsc || text.any isEscaped, rest) := by
  induction text generalizing hasEsc with
  | nil => simp [scanQuoted]
  | cons c text ih =>
      rw [List.flatMap_cons, List.append_assoc, scanQuoted_escape, ih, List.any_cons,
        Bool.or_assoc]
      rfl

/-- A text without escapes is quoted as it is. -/
theorem flatMap_escape_of_plain {text : List Char} (plain : text.any isEscaped = false) :
    text.flatMap escape = text := by
  induction text with
  | nil => rfl
  | cons c text ih =>
      rw [List.any_cons, Bool.or_eq_false_iff] at plain
      have same : escape c = [c] := by simpa [isEscaped] using plain.1
      rw [List.flatMap_cons, same, ih plain.2]
      rfl

/-! ## Words -/

theorem inWord_of_solid {c : Char} (solid : special c = false) :
    inWord c = true ∧ isBlank c = false ∧ c ≠ runeError ∧ c ≠ '"' := by
  simp only [special, Bool.or_eq_false_iff, beq_eq_false_iff_ne, decide_eq_false_iff_not] at solid
  obtain ⟨⟨⟨notBlank, notEquals⟩, notQuote⟩, notError⟩ := solid
  have visible : isBlank c = false := by simpa [isBlank] using notBlank
  exact ⟨by simp [inWord, visible, notEquals, notQuote], visible, notError, notQuote⟩

/-- What follows a word does not belong to it. -/
def EndsWord (rest : List Char) : Prop := ∀ c ∈ rest.head?, inWord c = false

theorem takeWhile_word {word rest : List Char} (clear : word.any special = false)
    (ends : EndsWord rest) :
    (word ++ rest).takeWhile inWord = word ∧ (word ++ rest).dropWhile inWord = rest := by
  have all : ∀ c ∈ word, inWord c = true := fun c member =>
    (inWord_of_solid (by simpa using List.any_eq_false.mp clear c member)).1
  have stops : rest.takeWhile inWord = [] ∧ rest.dropWhile inWord = rest := by
    cases rest with
    | nil => simp
    | cons c rest => simp [ends c rfl]
  rw [List.takeWhile_append_of_pos all, List.dropWhile_append_of_pos all, stops.1, stops.2,
    List.append_nil]
  exact ⟨rfl, rfl⟩

/-- What follows a pair is a space or the end. -/
def EndsPair (rest : List Char) : Prop := ∀ c ∈ rest.head?, isBlank c = true

theorem EndsPair.endsWord {rest : List Char} (ends : EndsPair rest) : EndsWord rest :=
  fun c first => by simp [inWord, ends c first]

namespace Decoder

/-! ## Reading pairs -/

/-- What is found of a pair: its key and its value, and what follows it. -/
structure Finds (result : Bool × Decoder) (key value rest : List Char) : Prop where
  found : result.1 = true
  key : result.2.key = key
  value : result.2.value = value
  line : result.2.line = rest

theorem scanValue_word (dec : Decoder) {value rest : List Char}
    (line : dec.line = value ++ rest) (clear : value.any special = false) (ends : EndsPair rest) :
    Finds dec.scanValue dec.key value rest := by
  obtain ⟨taken, dropped⟩ := takeWhile_word clear ends.endsWord
  unfold scanValue
  rw [line, taken, dropped]
  cases rest with
  | nil => exact ⟨rfl, rfl, rfl, rfl⟩
  | cons c rest =>
      simp only [pass, ends c rfl, if_true]
      exact ⟨rfl, rfl, rfl, rfl⟩

theorem scanQuotedValue_quoted (dec : Decoder) (value rest : List Char) :
    Finds (dec.scanQuotedValue (value.flatMap escape ++ '"' :: rest)) dec.key value rest := by
  unfold scanQuotedValue
  rw [scanQuoted_quoted, Bool.false_or]
  cases escapes : value.any isEscaped with
  | false =>
      rw [flatMap_escape_of_plain escapes]
      exact ⟨rfl, rfl, rfl, rfl⟩
  | true =>
      simp only [if_true, unquoteBytes_eq, unquoteFrom_escaped]
      exact ⟨rfl, rfl, rfl, rfl⟩

/-- A spelled value is read as its text. -/
theorem scanEqual_spelled (dec : Decoder) {written value rest : List Char}
    (line : dec.line = written ++ rest) (spells : Spells written value) (ends : EndsPair rest)
    (fresh : dec.value = []) : Finds dec.scanEqual dec.key value rest := by
  unfold scanEqual
  cases spells with
  | quoted =>
      have opens : dec.line = '"' :: (value.flatMap escape ++ '"' :: rest) := by
        rw [line]
        simp [quoted]
      rw [opens]
      exact dec.scanQuotedValue_quoted value rest
  | plain clear =>
      cases written with
      | nil =>
          rw [List.nil_append] at line
          cases rest with
          | nil =>
              rw [line]
              exact ⟨rfl, rfl, fresh, line⟩
          | cons c rest =>
              rw [line]
              simp only [ends c rfl, if_true]
              exact ⟨rfl, rfl, fresh, line⟩
      | cons c written =>
          have solid : special c = false := by
            rw [List.any_cons, Bool.or_eq_false_iff] at clear
            exact clear.1
          obtain ⟨-, visible, -, notQuote⟩ := inWord_of_solid solid
          rw [line, List.cons_append]
          simp only [visible, Bool.false_eq_true, if_false, notQuote]
          exact dec.scanValue_word line clear ends

/-- A valid key is read as it is. -/
theorem scanKey_spelled (dec : Decoder) {key rest : List Char}
    (line : dec.line = key ++ '=' :: rest) (valid : invalidKeyString key = false) :
    dec.scanKey =
      (({ dec.pass key ('=' :: rest) with key := key } : Decoder).pass ['='] rest).scanEqual := by
  simp only [invalidKeyString, Bool.or_eq_false_iff, List.isEmpty_eq_false_iff] at valid
  obtain ⟨nonempty, clear⟩ := valid
  have ends : EndsWord ('=' :: rest) := by
    intro c first
    cases first
    rfl
  obtain ⟨taken, dropped⟩ := takeWhile_word clear ends
  have noError : runeError ∉ key := fun member => by
    have solid := List.any_eq_false.mp clear runeError member
    exact solid (by decide)
  unfold scanKey
  rw [line, taken, dropped]
  simp [pass, nonempty, noError]

/-- **A spelled pair is read as its key and its value**, whatever follows it. -/
theorem scanKeyval_spelled (dec : Decoder) {space : Bool} {key written value rest : List Char}
    (going : dec.err = none)
    (line : dec.line = (if space then [' '] else []) ++ (key ++ '=' :: (written ++ rest)))
    (valid : invalidKeyString key = false) (spells : Spells written value)
    (ends : EndsPair rest) : Finds dec.scanKeyval key value rest := by
  have key' := valid
  simp only [invalidKeyString, Bool.or_eq_false_iff, List.isEmpty_eq_false_iff] at key'
  obtain ⟨first, others, rfl⟩ := List.exists_cons_of_ne_nil key'.1
  have visible : isBlank first = false := by
    have clear := key'.2
    rw [List.any_cons, Bool.or_eq_false_iff] at clear
    exact (inWord_of_solid clear.1).2.1
  have starts : dec.line.dropWhile isBlank = (first :: others) ++ '=' :: (written ++ rest) := by
    rw [line]
    cases space
    · simp [visible]
    · have blank : isBlank ' ' = true := rfl
      simp [visible, blank]
  unfold scanKeyval
  simp only [going, Option.isSome_none, Bool.false_eq_true, if_false]
  rw [if_neg (by simp [pass, starts]), scanKey_spelled _ starts valid]
  exact scanEqual_spelled _ rfl spells ends rfl

end Decoder

/-! ## Reading lines -/

theorem Spelled.endsPair {text : List Char} {record : List Pair}
    (spelled : Spelled true text record) : EndsPair text := by
  cases spelled with
  | nil => simp [EndsPair]
  | cons valid spells spelled =>
      intro c first
      cases first
      rfl

/-- **A line is read as the pairs that it spells.** -/
theorem Decoder.keyvals_spelled {space : Bool} {text : List Char} {record : List Pair}
    (spelled : Spelled space text record) (dec : Decoder) (going : dec.err = none)
    (line : dec.line = text) : dec.keyvals.1 = record ∧ dec.keyvals.2.err = none := by
  induction spelled generalizing dec with
  | nil space =>
      have atEnd : dec.scanKeyval = (false, { dec with key := [], value := [] }) := by
        simp [scanKeyval, going, pass, line]
      rw [keyvals, dif_neg (by simp [atEnd]), atEnd]
      exact ⟨rfl, going⟩
  | cons space valid spells spelled ih =>
      have finds := dec.scanKeyval_spelled going line valid spells spelled.endsPair
      have rest := ih dec.scanKeyval.2 (dec.scanKeyval_going finds.found).2 finds.line
      rw [dec.keyvals_of_found finds.found, finds.key, finds.value, rest.1]
      exact ⟨rfl, rest.2⟩

theorem digitChar_printable : ∀ n < 16, ¬ (Nat.digitChar n).toNat < 0x20 := by decide

theorem forall_printable {text : List Char}
    (all : text.all (fun d => !decide (d.toNat < 0x20)) = true) :
    ∀ d ∈ text, ¬ d.toNat < 0x20 := by
  simpa using all

/-- An escape is printable. -/
theorem escape_printable (c : Char) : ∀ d ∈ escape c, ¬ d.toNat < 0x20 := by
  intro d member
  unfold escape at member
  split at member
  · rename_i marked
    rcases marked with rfl | rfl
    · exact forall_printable (by decide) d member
    · exact forall_printable (by decide) d member
  split at member
  · exact forall_printable (by decide) d member
  split at member
  · exact forall_printable (by decide) d member
  split at member
  · exact forall_printable (by decide) d member
  split at member
  · rename_i control
    simp only [List.mem_cons, List.not_mem_nil, or_false] at member
    rcases member with rfl | rfl | rfl | rfl | rfl | rfl
    · decide
    · decide
    · decide
    · decide
    · exact digitChar_printable _ (by omega)
    · exact digitChar_printable _ (by omega)
  split at member
  · exact forall_printable (by decide) d member
  · rename_i control _
    rw [List.mem_singleton.mp member]
    exact control

theorem special_of_control {c : Char} (control : c.toNat < 0x20) : special c = true := by
  have blank : c ≤ ' ' := Nat.le_of_lt control
  simp [special, blank]

theorem Spells.printable {written text : List Char} (spells : Spells written text) :
    ∀ c ∈ written, ¬ c.toNat < 0x20 := by
  intro c member control
  cases spells with
  | plain clear => exact List.any_eq_false.mp clear c member (special_of_control control)
  | quoted =>
      simp only [Logfmt.quoted, List.mem_cons, List.mem_append, List.mem_flatMap,
        List.not_mem_nil, or_false] at member
      rcases member with rfl | ⟨d, -, escaped⟩ | rfl
      · exact absurd control (by decide)
      · exact escape_printable d c escaped control
      · exact absurd control (by decide)

/-- **A spelled line holds no control character**, so no line break. -/
theorem Spelled.printable {space : Bool} {text : List Char} {record : List Pair}
    (spelled : Spelled space text record) : ∀ c ∈ text, ¬ c.toNat < 0x20 := by
  induction spelled with
  | nil space => simp
  | cons space valid spells spelled ih =>
      intro c member control
      simp only [List.mem_append, List.mem_cons] at member
      simp only [invalidKeyString, Bool.or_eq_false_iff] at valid
      rcases member with blank | key | rfl | value | rest
      · cases space
        · cases blank
        · rw [List.mem_singleton.mp blank] at control
          exact absurd control (by decide)
      · exact List.any_eq_false.mp valid.2 c key (special_of_control control)
      · exact absurd control (by decide)
      · exact spells.printable c value control
      · exact ih c rest control

/-- A line with the pairs that it spells. -/
structure Line where
  text : List Char
  record : List Pair
  spelled : Spelled false text record

/-- A line with its line break. -/
def Line.ended (line : Line) : List Char := line.text ++ ['\n']

/-- Whether the scanner has room for it. -/
def Line.fits (line : Line) : Bool := size line.text < maxScanTokenSize

/-- A line is scanned as it is, if the scanner has room for it. -/
theorem Decoder.scanRecord_line {dec : Decoder} {line : Line} {rest : List Char}
    (going : dec.err = none) (input : dec.input = line.text ++ '\n' :: rest) :
    dec.scanRecord =
      if line.fits then
        (true, { dec with input := rest, lineNum := dec.lineNum + 1, line := line.text, pos := 0 })
      else (false, { dec with err := some .tooLong }) := by
  obtain ⟨text, record, spelled⟩ := line
  have printable := spelled.printable
  dsimp only at input ⊢
  have inside : ∀ c ∈ text, inLine c = true := by
    intro c member
    have other : c ≠ '\n' := by
      rintro rfl
      exact printable _ member (by decide)
    simpa [inLine] using other
  have taken : dec.input.takeWhile inLine = text := by
    rw [input, List.takeWhile_append_of_pos inside]
    simp [inLine]
  have dropped : dec.input.dropWhile inLine = '\n' :: rest := by
    rw [input, List.dropWhile_append_of_pos inside]
    simp [inLine]
  have keeps : dropCR text = text := by
    unfold dropCR
    split
    · rename_i last
      exact absurd (by decide) (printable '\r' (List.mem_of_getLast? last))
    · rfl
  unfold scanRecord
  rw [taken, dropped, keeps, if_neg (by simp [going, input])]
  by_cases room : size text < maxScanTokenSize
  · rw [if_neg (Nat.not_le_of_lt room), if_pos (by simpa [Line.fits] using room)]
    rfl
  · rw [if_pos (Nat.le_of_not_lt room), if_neg (by simpa [Line.fits] using room)]

/-- **Lines are read as the pairs that they spell**, up to the first one that the
scanner has no room for. -/
theorem Decoder.records_spelled (lines : List Line) {dec : Decoder} (going : dec.err = none)
    (input : dec.input = lines.flatMap Line.ended) :
    dec.records = ((lines.takeWhile Line.fits).map Line.record,
      if lines.all Line.fits then none else some .tooLong) := by
  induction lines generalizing dec with
  | nil =>
      rw [records_atEnd input, going]
      rfl
  | cons line lines ih =>
      have scanned : dec.input = line.text ++ '\n' :: lines.flatMap Line.ended := by
        rw [input, List.flatMap_cons, Line.ended, List.append_assoc]
        rfl
      have scan := scanRecord_line going scanned
      by_cases room : line.fits = true
      · rw [if_pos room] at scan
        have found : dec.scanRecord.1 = true := by rw [scan]
        have read := keyvals_spelled line.spelled dec.scanRecord.2 (by rw [scan]; exact going)
          (by rw [scan])
        have others := ih read.2 (by rw [(keyvals_scans _).input, scan])
        rw [records_of_found found, others, read.1, List.takeWhile_cons_of_pos room, List.all_cons,
          room, Bool.true_and]
        rfl
      · rw [if_neg room] at scan
        rw [records, dif_neg (by rw [scan]; simp), scan, List.takeWhile_cons_of_neg room,
          List.all_cons, Bool.eq_false_iff.mpr room]
        rfl

/-- A decoder meets no error in a text of lines exactly if all of them fit, and reads all
their pairs then. -/
theorem parse_lines_iff (lines : List Line) :
    ((parse (lines.flatMap Line.ended)).2 = none ↔ ∀ line ∈ lines, line.fits = true) ∧
      ((∀ line ∈ lines, line.fits = true) →
        parse (lines.flatMap Line.ended) = (lines.map Line.record, none)) := by
  have read := @Decoder.records_spelled lines { input := lines.flatMap Line.ended } rfl rfl
  rw [parse, read]
  constructor
  · rw [← List.all_eq_true]
    split
    · rename_i all
      simp [all]
    · rename_i long
      simp [long]
  · intro all
    rw [if_pos (List.all_eq_true.mpr all), List.takeWhile_eq_self_iff.mpr all]

/-- A text of lines is read as all their pairs exactly if all of them fit. -/
theorem parse_lines_eq_iff (lines : List Line) :
    parse (lines.flatMap Line.ended) = (lines.map Line.record, none) ↔
      ∀ line ∈ lines, line.fits = true := by
  obtain ⟨noError, whole⟩ := parse_lines_iff lines
  exact ⟨fun read => noError.mp (congrArg Prod.snd read), whole⟩

end DawnPatrol.Logfmt

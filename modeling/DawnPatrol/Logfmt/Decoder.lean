import DawnPatrol.Foundation.JsonText
import DawnPatrol.Logfmt.Encoder
import Mathlib.Algebra.GroupWithZero.Nat

/-!
# Reading logfmt

A decoder reads one line at a time, and the keys and values of a line one after
the other. A key ends before an equals sign or a space, and a value may be
quoted. What is no key and no value is a syntax error at a position of a line.

The data is a text in UTF-8. A position counts bytes, so every character adds its
bytes to it (`size`). A line that is too long for the scanner of lines is an error of
its own.

Whatever a call reads, it passes over a part of the line and never leaves it
(`scanKeyval_scans`), and it makes progress when it finds a key
(`scanKeyval_shorter`), so a record and a stream are read to their end
(`keyvals`, `records`). A syntax error is on the line that was read last, and not
behind its end (`parse_syntaxError`).
-/

set_option autoImplicit false

namespace DawnPatrol.Logfmt

open Foundation Go

/-- The bytes of a text. -/
def size (text : List Char) : ℕ := (text.map Char.utf8Size).sum

@[simp] theorem size_nil : size [] = 0 := rfl

@[simp] theorem size_cons (c : Char) (text : List Char) :
    size (c :: text) = c.utf8Size + size text := rfl

@[simp] theorem size_append (first second : List Char) :
    size (first ++ second) = size first + size second := by
  simp [size]

/-! ## Quoted values -/

/-- The character after a backslash, unless it is a `u`. -/
def unescape (c : Char) : Option Char := if c = '\x27' then some c else Json.unescape c

/-- The first character of the text between two quotes, escaped or not. The escapes of
surrogate halves are those of `encoding/json`. -/
def unquoteChar : List Char → Option (Char × List Char)
  | [] => none
  | c :: rest =>
      if c = '\\' then
        match rest with
        | 'u' :: digits => do
            let (code, after) ← Json.readCode digits
            Json.readCoded code after
        | escaped :: after => (unescape escaped).map fun c => (c, after)
        | [] => none
      else if c = '"' ∨ c < ' ' then none
      else some (c, rest)

theorem readCode_length {digits after : List Char} {code : ℕ}
    (read : Json.readCode digits = some (code, after)) : after.length ≤ digits.length := by
  unfold Json.readCode at read
  split at read
  · simp only [Option.bind_eq_bind, Option.bind_eq_some_iff] at read
    obtain ⟨_, -, _, -, _, -, _, -, same⟩ := read
    cases same
    simp only [List.length_cons]
    omega
  · cases read

theorem readCoded_length {code : ℕ} {rest after : List Char} {c : Char}
    (read : Json.readCoded code rest = some (c, after)) : after.length ≤ rest.length := by
  unfold Json.readCoded at read
  split at read
  · split at read
    · rename_i more
      simp only [Option.bind_eq_bind, Option.bind_eq_some_iff] at read
      obtain ⟨⟨low, last⟩, code, read⟩ := read
      have shorter := readCode_length code
      split at read
      · have same : last = after := congrArg Prod.snd (Option.some.inj read)
        rw [← same]
        simp only [List.length_cons]
        omega
      · have same : _ = after := congrArg Prod.snd (Option.some.inj read)
        rw [← same]
    · have same : _ = after := congrArg Prod.snd (Option.some.inj read)
      rw [← same]
  · have same : _ = after := congrArg Prod.snd (Option.some.inj read)
    rw [← same]

/-- A character of a quoted text is read from at least one of it. -/
theorem unquoteChar_shorter {text rest : List Char} {c : Char}
    (read : unquoteChar text = some (c, rest)) : rest.length < text.length := by
  unfold unquoteChar at read
  split at read
  · cases read
  split at read
  · split at read
    · simp only [Option.bind_eq_bind, Option.bind_eq_some_iff] at read
      obtain ⟨⟨code, after⟩, codeRead, read⟩ := read
      have first : after.length ≤ _ := readCode_length codeRead
      have second : rest.length ≤ after.length := readCoded_length read
      simp only [List.length_cons]
      omega
    · obtain ⟨_, -, same⟩ := Option.map_eq_some_iff.mp read
      cases same
      simp only [List.length_cons]
      omega
    · cases read
  · split at read
    · cases read
    · cases read
      exact Nat.lt_succ_self _

/-- The loop of `unquoteBytes`. -/
def unquoteFrom (text : List Char) : Option (List Char) :=
  if text = [] then some []
  else
    match _read : unquoteChar text with
    | none => none
    | some (c, rest) => (unquoteFrom rest).map (c :: ·)
termination_by text.length
decreasing_by exact unquoteChar_shorter _read

/-- A character that `unquoteBytes` passes over before its loop. -/
def usual (c : Char) : Bool := c != '\\' && c != '"' && !(c < ' ') && c != runeError

/-- `unquoteBytes`, of the text between the quotes. -/
def unquoteBytes (text : List Char) : Option (List Char) :=
  let unusual := text.dropWhile usual
  if unusual = [] then some text
  else (unquoteFrom unusual).map (text.takeWhile usual ++ ·)

/-! ## Errors -/

/-- The messages of syntax errors. -/
inductive Message where
  | invalidKey
  | unexpected (c : Char)
  | untermQuote
  | invalidQuote
  deriving DecidableEq

def Message.text : Message → List Char
  | invalidKey => "invalid key".toList
  | unexpected c => "unexpected ".toList ++ ['\x27', c, '\x27']
  | untermQuote => "unterminated quoted value".toList
  | invalidQuote => "invalid quoted value".toList

/-- A `SyntaxError`. -/
structure SyntaxError where
  msg : Message
  line : ℕ
  pos : ℕ
  deriving DecidableEq

/-- `SyntaxError.Error`. -/
def SyntaxError.error (e : SyntaxError) : List Char :=
  "logfmt syntax error at pos ".toList ++ (Nat.toDigits 10 e.pos ++ (" on line ".toList ++
    (Nat.toDigits 10 e.line ++ (": ".toList ++ e.msg.text))))

/-- What stops a decoder. `tooLong` is the `bufio.ErrTooLong` of the scanner. -/
inductive DecodeError where
  | tooLong
  | syntaxError (e : SyntaxError)
  deriving DecidableEq

/-! ## The decoder -/

/-- A decoder: what it has not read of its input and of its line, the position in the
line, and the key and the value it has found. The empty text stands for nil. -/
structure Decoder where
  input : List Char
  lineNum : ℕ := 0
  line : List Char := []
  pos : ℕ := 0
  key : List Char := []
  value : List Char := []
  err : Option DecodeError := none

/-- `bufio.MaxScanTokenSize`, which is the size of the buffer of a scanner. A line needs
room in it together with its line break. -/
def maxScanTokenSize : ℕ := 65536

/-- `dropCR` of the scanner. -/
def dropCR (line : List Char) : List Char :=
  if line.getLast? = some '\r' then line.dropLast else line

/-- Other than the line break. -/
def inLine (c : Char) : Bool := c != '\n'

/-- A space or a control character. -/
def isBlank (c : Char) : Bool := c ≤ ' '

/-- A character of a key, or of a value without quotes. -/
def inWord (c : Char) : Bool := c != '=' && c != '"' && !isBlank c

/-- The text up to the quote that ends it, whether there is an escape in it, and what
follows the quote. -/
def scanQuoted (hasEsc esc : Bool) : List Char → Option (List Char × Bool × List Char)
  | [] => none
  | c :: rest =>
      if esc then (scanQuoted hasEsc false rest).map fun read => (c :: read.1, read.2)
      else if c = '\\' then (scanQuoted true true rest).map fun read => (c :: read.1, read.2)
      else if c = '"' then some ([], hasEsc, rest)
      else (scanQuoted hasEsc false rest).map fun read => (c :: read.1, read.2)

namespace Decoder

/-- `ScanRecord`. -/
def scanRecord (dec : Decoder) : Bool × Decoder :=
  if dec.err.isSome ∨ dec.input = [] then (false, dec)
  else if maxScanTokenSize ≤ size (dec.input.takeWhile inLine) then
    (false, { dec with err := some .tooLong })
  else
    (true, { dec with
      input := (dec.input.dropWhile inLine).drop 1
      lineNum := dec.lineNum + 1
      line := dropCR (dec.input.takeWhile inLine)
      pos := 0 })

/-- The decoder after a part of its line. -/
def pass (dec : Decoder) (passed rest : List Char) : Decoder :=
  { dec with line := rest, pos := dec.pos + size passed }

/-- A syntax error where the decoder is. -/
def fail (dec : Decoder) (msg : Message) : Bool × Decoder :=
  (false, { dec with err := some (.syntaxError ⟨msg, dec.lineNum, dec.pos + 1⟩) })

/-- The part labelled `qvalue`, behind the opening quote. -/
def scanQuotedValue (dec : Decoder) (rest : List Char) : Bool × Decoder :=
  match scanQuoted false false rest with
  | none => (dec.pass dec.line []).fail .untermQuote
  | some (text, hasEsc, after) =>
      let dec := dec.pass ('"' :: (text ++ ['"'])) after
      if hasEsc then
        match unquoteBytes text with
        | none => dec.fail .invalidQuote
        | some value => (true, { dec with value := value })
      else (true, { dec with value := text })

/-- The part labelled `value`. -/
def scanValue (dec : Decoder) : Bool × Decoder :=
  let value := dec.line.takeWhile inWord
  let dec := dec.pass value (dec.line.dropWhile inWord)
  match dec.line with
  | [] => (true, { dec with value := value })
  | c :: _ => if isBlank c then (true, { dec with value := value }) else dec.fail (.unexpected c)

/-- The part labelled `equal`, behind the equals sign. -/
def scanEqual (dec : Decoder) : Bool × Decoder :=
  match dec.line with
  | [] => (true, dec)
  | c :: rest =>
      if isBlank c then (true, dec)
      else if c = '"' then dec.scanQuotedValue rest
      else dec.scanValue

/-- The part labelled `key`. -/
def scanKey (dec : Decoder) : Bool × Decoder :=
  let key := dec.line.takeWhile inWord
  let dec := dec.pass key (dec.line.dropWhile inWord)
  match dec.line with
  | [] =>
      let dec := { dec with key := key }
      if runeError ∈ key then dec.fail .invalidKey else (true, dec)
  | c :: rest =>
      if c = '"' ∨ (c = '=' ∧ key = []) then dec.fail (.unexpected c)
      else
        let dec := { dec with key := key }
        if runeError ∈ key then dec.fail .invalidKey
        else if c = '=' then (dec.pass [c] rest).scanEqual
        else (true, dec)

/-- `ScanKeyval`. -/
def scanKeyval (dec : Decoder) : Bool × Decoder :=
  let dec := { dec with key := [], value := [] }
  if dec.err.isSome then (false, dec)
  else
    let dec := dec.pass (dec.line.takeWhile isBlank) (dec.line.dropWhile isBlank)
    if dec.line = [] then (false, dec) else dec.scanKey

/-! ## Progress -/

/-- A decoder has passed over some of its line, and has counted the bytes. -/
structure Passed (before after : Decoder) : Prop where
  suffix : after.line <:+ before.line
  total : after.pos + size after.line = before.pos + size before.line
  input : after.input = before.input
  lineNum : after.lineNum = before.lineNum
  err : after.err = before.err

/-- What every part of `ScanKeyval` does: the decoder passes over some of its line, and
may then meet a syntax error there. -/
structure Scans (before : Decoder) (result : Bool × Decoder) : Prop where
  suffix : result.2.line <:+ before.line
  total : result.2.pos + size result.2.line = before.pos + size before.line
  input : result.2.input = before.input
  lineNum : result.2.lineNum = before.lineNum
  stops : result.2.err = before.err ∨ (result.1 = false ∧
    ∃ msg, result.2.err = some (.syntaxError ⟨msg, result.2.lineNum, result.2.pos + 1⟩))

theorem passed_pass (dec : Decoder) {passed rest : List Char} (parts : passed ++ rest = dec.line) :
    Passed dec (dec.pass passed rest) where
  suffix := ⟨passed, parts⟩
  total := by
    rw [← parts, size_append]
    exact Nat.add_assoc _ _ _
  input := rfl
  lineNum := rfl
  err := rfl

theorem passed_setKey (dec : Decoder) (key : List Char) : Passed dec { dec with key := key } :=
  ⟨List.suffix_refl _, rfl, rfl, rfl, rfl⟩

theorem passed_setValue (dec : Decoder) (value : List Char) :
    Passed dec { dec with value := value } :=
  ⟨List.suffix_refl _, rfl, rfl, rfl, rfl⟩

namespace Passed

variable {first second third : Decoder} {result : Bool × Decoder}

theorem refl (dec : Decoder) : Passed dec dec :=
  ⟨List.suffix_refl _, rfl, rfl, rfl, rfl⟩

theorem trans (one : Passed first second) (two : Passed second third) : Passed first third :=
  ⟨two.suffix.trans one.suffix, two.total.trans one.total, two.input.trans one.input,
    two.lineNum.trans one.lineNum, two.err.trans one.err⟩

theorem scans (passed : Passed first second) (found : Bool) : Scans first (found, second) :=
  ⟨passed.suffix, passed.total, passed.input, passed.lineNum, .inl passed.err⟩

theorem fail (passed : Passed first second) (msg : Message) : Scans first (second.fail msg) :=
  ⟨passed.suffix, passed.total, passed.input, passed.lineNum, .inr ⟨rfl, msg, rfl⟩⟩

theorem andThen (one : Passed first second) (two : Scans second result) : Scans first result where
  suffix := two.suffix.trans one.suffix
  total := two.total.trans one.total
  input := two.input.trans one.input
  lineNum := two.lineNum.trans one.lineNum
  stops := by
    rw [← one.err]
    exact two.stops

end Passed

/-- A decoder that finds something goes on. -/
theorem Scans.passed {before : Decoder} {result : Bool × Decoder} (scans : Scans before result)
    (found : result.1 = true) : Passed before result.2 := by
  refine ⟨scans.suffix, scans.total, scans.input, scans.lineNum, ?_⟩
  rcases scans.stops with going | ⟨stopped, -⟩
  · exact going
  · rw [found] at stopped
    cases stopped

end Decoder

/-- The text that a scan of a quoted value has passed over. -/
theorem scanQuoted_parts {hasEsc esc found : Bool} {line text rest : List Char}
    (scanned : scanQuoted hasEsc esc line = some (text, found, rest)) :
    text ++ '"' :: rest = line := by
  induction line generalizing hasEsc esc text with
  | nil => cases scanned
  | cons c line ih =>
      rw [scanQuoted] at scanned
      have more : ∀ hasEsc esc,
          (scanQuoted hasEsc esc line).map (fun read => (c :: read.1, read.2)) =
            some (text, found, rest) → text ++ '"' :: rest = c :: line := by
        intro hasEsc esc mapped
        obtain ⟨⟨front, found, last⟩, inner, same⟩ := Option.map_eq_some_iff.mp mapped
        cases same
        rw [List.cons_append, ih inner]
      split at scanned
      · exact more _ _ scanned
      split at scanned
      · exact more _ _ scanned
      split at scanned
      · rename_i quote
        cases scanned
        rw [quote]
        rfl
      · exact more _ _ scanned

namespace Decoder

theorem scanQuotedValue_scans (dec : Decoder) {rest : List Char} (opens : dec.line = '"' :: rest) :
    Scans dec (dec.scanQuotedValue rest) := by
  unfold scanQuotedValue
  split
  · exact (passed_pass dec (List.append_nil dec.line)).fail _
  · rename_i text hasEsc after scanned
    have parts : '"' :: (text ++ ['"']) ++ after = dec.line := by
      rw [opens, ← scanQuoted_parts scanned]
      simp
    have behind := passed_pass dec parts
    split
    · split
      · exact behind.fail _
      · exact (behind.trans (passed_setValue _ _)).scans true
    · exact (behind.trans (passed_setValue _ _)).scans true

/-- The decoder behind the word at the start of its line. -/
def passWord (dec : Decoder) : Decoder :=
  dec.pass (dec.line.takeWhile inWord) (dec.line.dropWhile inWord)

theorem passed_passWord (dec : Decoder) : Passed dec dec.passWord :=
  passed_pass dec List.takeWhile_append_dropWhile

theorem scanValue_scans (dec : Decoder) : Scans dec dec.scanValue := by
  have found := fun value => (dec.passed_passWord.trans (passed_setValue _ value)).scans true
  unfold scanValue
  dsimp only
  split
  · exact found _
  · split
    · exact found _
    · exact dec.passed_passWord.fail _

theorem scanEqual_scans (dec : Decoder) : Scans dec dec.scanEqual := by
  unfold scanEqual
  split
  · exact (Passed.refl dec).scans true
  · rename_i c rest line
    split
    · exact (Passed.refl dec).scans true
    · split
      · rename_i quote
        exact dec.scanQuotedValue_scans (by rw [line, quote])
      · exact dec.scanValue_scans

/-- A key is read behind its word. -/
theorem scanKey_scans (dec : Decoder) : Scans dec.passWord dec.scanKey := by
  have behind := passed_setKey dec.passWord (dec.line.takeWhile inWord)
  unfold scanKey
  dsimp only
  split
  · split
    · exact behind.fail _
    · exact behind.scans true
  · rename_i c rest line
    split
    · exact (Passed.refl dec.passWord).fail _
    · split
      · exact behind.fail _
      · split
        · have equals := @passed_pass { dec.passWord with key := dec.line.takeWhile inWord }
            [c] rest line.symm
          exact behind.andThen (equals.andThen (scanEqual_scans _))
        · exact behind.scans true

/-- **What a call of `ScanKeyval` does.** -/
theorem scanKeyval_scans (dec : Decoder) : Scans dec dec.scanKeyval := by
  have start := (passed_setKey dec []).trans (passed_setValue _ [])
  unfold scanKeyval
  dsimp only
  split
  · exact start.scans false
  · have behind := start.trans (passed_pass _
      (@List.takeWhile_append_dropWhile _ isBlank dec.line))
    split
    · exact behind.scans false
    · exact (behind.trans (passed_passWord _)).andThen (scanKey_scans _)

/-- A key that is found is not empty. -/
theorem scanKey_found {dec : Decoder} {c : Char} {rest : List Char} (line : dec.line = c :: rest)
    (solid : isBlank c = false) (found : dec.scanKey.1 = true) : inWord c = true := by
  by_contra stops
  have ends : c = '"' ∨ c = '=' := by
    simp only [inWord, solid, Bool.not_false, Bool.and_true, Bool.and_eq_true, bne_iff_ne,
      not_and, not_not] at stops
    by_cases equals : c = '='
    · exact .inr equals
    · exact .inl (stops equals)
  have key : dec.line.takeWhile inWord = [] := by rw [line, List.takeWhile_cons_of_neg stops]
  have stays : dec.line.dropWhile inWord = c :: rest := by
    rw [line, List.dropWhile_cons_of_neg stops]
  simp [scanKey, pass, key, stays, fail, ends] at found

/-- **A key that is found is passed over.** -/
theorem scanKeyval_shorter {dec : Decoder} (found : dec.scanKeyval.1 = true) :
    dec.scanKeyval.2.line.length < dec.line.length := by
  unfold scanKeyval at found ⊢
  dsimp only at found ⊢
  split
  · rename_i stopped
    rw [if_pos stopped] at found
    cases found
  · rename_i going
    rw [if_neg going] at found
    split
    · rename_i atEnd
      rw [if_pos atEnd] at found
      cases found
    · rename_i more
      rw [if_neg more] at found
      have within : (dec.line.dropWhile isBlank).length ≤ dec.line.length :=
        (List.dropWhile_suffix isBlank).length_le
      cases line : dec.line.dropWhile isBlank with
      | nil => exact absurd line more
      | cons c rest =>
          have solid : isBlank c = false := by
            have first := List.head?_dropWhile_not isBlank dec.line
            rw [line] at first
            simpa using first
          have word := scanKey_found line solid found
          have skipped : (rest.dropWhile inWord).length ≤ rest.length :=
            (List.dropWhile_suffix inWord).length_le
          refine Nat.lt_of_le_of_lt (scanKey_scans _).suffix.length_le ?_
          simp only [passWord, pass, List.dropWhile_cons_of_pos word]
          rw [line, List.length_cons] at within
          omega

/-! ## Records -/

/-- A decoder that finds a key has met no error, and meets none. -/
theorem scanKeyval_going {dec : Decoder} (found : dec.scanKeyval.1 = true) :
    dec.err = none ∧ dec.scanKeyval.2.err = none := by
  have going := (dec.scanKeyval_scans.passed found).err
  have before : dec.err = none := by
    cases err : dec.err with
    | none => rfl
    | some e => simp [scanKeyval, err] at found
  exact ⟨before, going.trans before⟩

/-- The keys and values of a line: the loop `for dec.ScanKeyval()`. -/
def keyvals (dec : Decoder) : List Pair × Decoder :=
  if _found : dec.scanKeyval.1 = true then
    let rest := dec.scanKeyval.2.keyvals
    ((dec.scanKeyval.2.key, dec.scanKeyval.2.value) :: rest.1, rest.2)
  else ([], dec.scanKeyval.2)
termination_by dec.line.length
decreasing_by exact scanKeyval_shorter _found

theorem keyvals_of_found {dec : Decoder} (found : dec.scanKeyval.1 = true) :
    dec.keyvals = ((dec.scanKeyval.2.key, dec.scanKeyval.2.value) :: dec.scanKeyval.2.keyvals.1,
      dec.scanKeyval.2.keyvals.2) := by
  rw [keyvals, dif_pos found]

/-- **A line is scanned to its end**, or to a syntax error in it. -/
theorem keyvals_scans (dec : Decoder) : Scans dec (false, dec.keyvals.2) := by
  induction dec using keyvals.induct with
  | case1 dec found ih =>
      rw [keyvals, dif_pos found]
      exact (dec.scanKeyval_scans.passed found).andThen ih
  | case2 dec atEnd =>
      rw [keyvals, dif_neg atEnd]
      have scans := dec.scanKeyval_scans
      refine ⟨scans.suffix, scans.total, scans.input, scans.lineNum, ?_⟩
      exact scans.stops.imp_right fun stopped => ⟨rfl, stopped.2⟩

/-- A line that is scanned is left behind. -/
theorem scanRecord_shorter {dec : Decoder} (found : dec.scanRecord.1 = true) :
    dec.scanRecord.2.keyvals.2.input.length < dec.input.length := by
  rw [(keyvals_scans _).input]
  unfold scanRecord at found ⊢
  split
  · rename_i atEnd
    rw [if_pos atEnd] at found
    cases found
  · rename_i more
    rw [if_neg more] at found
    split
    · rename_i long
      rw [if_pos long] at found
      cases found
    · have suffix := (@List.dropWhile_suffix _ dec.input inLine).length_le
      have nonempty : 0 < dec.input.length := by
        simp only [not_or] at more
        exact List.length_pos_iff.mpr more.2
      simp only [List.length_drop]
      omega

/-- The records of a stream, with what stops the decoder: the loop
`for dec.ScanRecord()`. -/
def records (dec : Decoder) : List (List Pair) × Option DecodeError :=
  if _found : dec.scanRecord.1 = true then
    let record := dec.scanRecord.2.keyvals
    let rest := record.2.records
    (record.1 :: rest.1, rest.2)
  else ([], dec.scanRecord.2.err)
termination_by dec.input.length
decreasing_by exact scanRecord_shorter _found

theorem records_of_found {dec : Decoder} (found : dec.scanRecord.1 = true) :
    dec.records = (dec.scanRecord.2.keyvals.1 :: dec.scanRecord.2.keyvals.2.records.1,
      dec.scanRecord.2.keyvals.2.records.2) := by
  rw [records, dif_pos found]

end Decoder

/-! ## Keys -/

namespace Decoder

end Decoder

/-! ## Lines and errors -/

/-- The part of a text before its first line break, with the break and what follows it. -/
theorem inLine_parts (data : List Char) :
    '\n' ∉ data.takeWhile inLine ∧ (data.dropWhile inLine = [] ∨
      data.dropWhile inLine = '\n' :: (data.dropWhile inLine).drop 1) := by
  constructor
  · intro member
    have inside := List.all_eq_true.mp List.all_takeWhile _ member
    cases inside
  · cases rest : data.dropWhile inLine with
    | nil => exact .inl rfl
    | cons c rest' =>
        have first := List.head?_dropWhile_not inLine data
        rw [rest] at first
        have break_ : c = '\n' := by simpa [inLine] using first
        rw [break_]
        exact .inr rfl

/-- The lines of a text, when the first of them has a line break. -/
theorem splitOn_of_rest {data : List Char} (more : (data.dropWhile inLine).drop 1 ≠ []) :
    data.splitOn '\n' =
      data.takeWhile inLine :: ((data.dropWhile inLine).drop 1).splitOn '\n' := by
  obtain ⟨clear, atEnd | rest⟩ := inLine_parts data
  · rw [atEnd] at more
    exact absurd rfl more
  · have parts := @List.takeWhile_append_dropWhile _ inLine data
    rw [rest] at parts
    exact (congrArg (List.splitOn '\n') parts.symm).trans
      (List.splitOn_append_cons_self_of_not_mem clear _)

theorem splitOn_head (data : List Char) :
    (data.splitOn '\n')[0]? = some (data.takeWhile inLine) := by
  obtain ⟨clear, atEnd | rest⟩ := inLine_parts data
  · have whole := @List.takeWhile_append_dropWhile _ inLine data
    rw [atEnd, List.append_nil] at whole
    rw [whole] at clear ⊢
    rw [List.splitOn_eq_singleton clear]
    rfl
  · have parts := @List.takeWhile_append_dropWhile _ inLine data
    rw [rest] at parts
    have lines := (congrArg (List.splitOn '\n') parts.symm).trans
      (List.splitOn_append_cons_self_of_not_mem clear _)
    rw [lines]
    rfl

namespace Decoder

/-- A decoder that has met an error reads nothing more. -/
theorem records_stopped {dec : Decoder} {e : DecodeError} (stopped : dec.err = some e) :
    dec.records = ([], some e) := by
  have scanned : dec.scanRecord = (false, dec) := by simp [scanRecord, stopped]
  rw [records, dif_neg (by simp [scanned]), scanned, stopped]

/-- A decoder at the end of its input has met no other error. -/
theorem records_atEnd {dec : Decoder} (atEnd : dec.input = []) : dec.records = ([], dec.err) := by
  have scanned : dec.scanRecord = (false, dec) := by simp [scanRecord, atEnd]
  rw [records, dif_neg (by simp [scanned]), scanned]

/-- What is scanned of a line that is found. -/
theorem scanRecord_found {dec : Decoder} (found : dec.scanRecord.1 = true) :
    dec.input ≠ [] ∧ size (dec.input.takeWhile inLine) < maxScanTokenSize ∧
      dec.scanRecord.2 = { dec with
        input := (dec.input.dropWhile inLine).drop 1
        lineNum := dec.lineNum + 1
        line := dropCR (dec.input.takeWhile inLine)
        pos := 0 } := by
  unfold scanRecord at found ⊢
  by_cases atEnd : dec.err.isSome ∨ dec.input = []
  · rw [if_pos atEnd] at found
    cases found
  · rw [if_neg atEnd] at found ⊢
    by_cases long : maxScanTokenSize ≤ size (dec.input.takeWhile inLine)
    · rw [if_pos long] at found
      cases found
    · rw [if_neg long]
      exact ⟨fun empty => atEnd (.inr empty), Nat.lt_of_not_le long, rfl⟩

/-- Where a syntax error is. -/
theorem records_syntaxError {dec : Decoder} {found : List (List Pair)} {e : SyntaxError}
    (going : dec.err = none) (read : dec.records = (found, some (.syntaxError e))) :
    found ≠ [] ∧ e.line = dec.lineNum + found.length ∧
      ∃ line, (dec.input.splitOn '\n')[found.length - 1]? = some line ∧
        1 ≤ e.pos ∧ e.pos ≤ size (dropCR line) + 1 := by
  induction dec using records.induct generalizing found with
  | case1 dec scanned _ =>
      rename_i ih
      rw [records_of_found scanned] at read
      obtain ⟨-, -, after⟩ := scanRecord_found scanned
      have scans := keyvals_scans dec.scanRecord.2
      have number : dec.scanRecord.2.keyvals.2.lineNum = dec.lineNum + 1 := by
        rw [scans.lineNum, after]
      have input : dec.scanRecord.2.keyvals.2.input = (dec.input.dropWhile inLine).drop 1 := by
        rw [scans.input, after]
      rcases scans.stops with passes | ⟨-, msg, stopped⟩
      · have going' : dec.scanRecord.2.keyvals.2.err = none := by
          rw [passes, after]
          exact going
        cases later : dec.scanRecord.2.keyvals.2.records with
        | mk others err =>
            rw [later] at read
            cases read
            obtain ⟨nonempty, line, text, found, least, most⟩ := ih going' later
            obtain ⟨first, others, rfl⟩ := List.exists_cons_of_ne_nil nonempty
            have more : (dec.input.dropWhile inLine).drop 1 ≠ [] := by
              intro empty
              rw [records_atEnd (input.trans empty)] at later
              cases later
            refine ⟨by simp, ?_, text, ?_, least, most⟩
            · calc e.line
                  _ = dec.scanRecord.2.keyvals.2.lineNum + (first :: others).length := line
                  _ = dec.lineNum + (dec.scanRecord.2.keyvals.1 :: first :: others).length := by
                    simp only [number, List.length_cons]
                    omega
            · rw [splitOn_of_rest more, ← input]
              exact found
      · have behind : dec.scanRecord.2.keyvals.2.pos ≤
            size (dropCR (dec.input.takeWhile inLine)) := by
          have total := scans.total
          rw [after] at total ⊢
          dsimp only at total ⊢
          omega
        have atEnd := @records_stopped dec.scanRecord.2.keyvals.2 _ stopped
        rw [atEnd] at read
        cases read
        refine ⟨by simp, number, _, splitOn_head dec.input, ?_, ?_⟩
        · exact Nat.le_add_left 1 _
        · exact Nat.succ_le_succ behind
  | case2 dec atEnd =>
      rw [records, dif_neg atEnd] at read
      have same := (Prod.mk.inj read).2
      unfold scanRecord at same
      split at same
      · rw [going] at same
        cases same
      · split at same
        · cases same
        · rename_i more short
          exact absurd (by rw [scanRecord, if_neg more, if_neg short]) atEnd

end Decoder

/-- All records of a text, and the error that the decoder has met. -/
def parse (data : List Char) : List (List Pair) × Option DecodeError :=
  Decoder.records { input := data }

/-- **A syntax error is on the line that was read last**, at a position that is at most
one behind its end. Every line before it was read. -/
theorem parse_syntaxError {data : List Char} {found : List (List Pair)} {e : SyntaxError}
    (read : parse data = (found, some (.syntaxError e))) :
    e.line = found.length ∧ ∃ line, (data.splitOn '\n')[e.line - 1]? = some line ∧
      1 ≤ e.pos ∧ e.pos ≤ size (dropCR line) + 1 := by
  obtain ⟨-, line, place⟩ := @Decoder.records_syntaxError { input := data } found e rfl read
  have line : e.line = found.length := line.trans (Nat.zero_add _)
  rw [line]
  exact ⟨rfl, place⟩

theorem lone_equals_is_syntaxError :
    parse ['='] = ([[]], some (.syntaxError ⟨.unexpected '=', 1, 1⟩)) ∧
    ∃ line, (List.splitOn '\n' ['='])[0]? = some line ∧ 1 ≤ size (dropCR line) + 1 := by
  have scanned : (Decoder.scanRecord { input := ['='] }).1 = true := by decide
  have read : parse ['='] = ([[]], some (.syntaxError ⟨.unexpected '=', 1, 1⟩)) := by
    rw [parse, Decoder.records_of_found scanned, Decoder.keyvals, dif_neg (by decide)]
    rw [@Decoder.records_stopped _ (.syntaxError ⟨.unexpected '=', 1, 1⟩) (by decide)]
  obtain ⟨-, line, found, -, most⟩ := parse_syntaxError read
  exact ⟨read, line, found, most⟩

end DawnPatrol.Logfmt

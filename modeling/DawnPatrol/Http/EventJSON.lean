import DawnPatrol.Api.Services
import DawnPatrol.Go.Rfc3339

/-!
# Events as JSON

What `json.Marshal` makes of a list of events, and what `json.Unmarshal` makes
of a text. The escapes are those of `encoding/json`, which the reader of JSON
undoes (`escapingHTML`). A list of events is read back as it was exactly when
the offsets of its times are written in full (`unmarshal_eventsText`).
-/

set_option autoImplicit false

namespace DawnPatrol.Http

open Foundation Foundation.Json Go Api

/-! ## Escapes -/

/-- The escape of a character by its code, in two hexadecimal digits after `lead`. -/
def escapeCode (lead : List Char) (c : Char) : List Char :=
  '\\' :: 'u' :: (lead ++ [Nat.digitChar (c.toNat / 16 % 16), Nat.digitChar (c.toNat % 16)])

/-- The escapes of `encoding/json`, with those that keep a text safe in HTML and in
JavaScript. -/
def escape (c : Char) : List Char :=
  if c = '"' ∨ c = '\\' then ['\\', c]
  else if c = '\n' then ['\\', 'n']
  else if c = '\r' then ['\\', 'r']
  else if c = '\t' then ['\\', 't']
  else if c.toNat < 0x20 ∨ c = '<' ∨ c = '>' ∨ c = '&' then escapeCode ['0', '0'] c
  else if c = '\u2028' ∨ c = '\u2029' then escapeCode ['2', '0'] c
  else [c]

theorem hexValue_digitChar : ∀ n < 16, hexValue (Nat.digitChar n) = some n := by
  decide

/-- The escape of a code is read back. -/
theorem readChar_escapeCode {first second : Char} (high : ℕ) {c : Char}
    (lead : hexValue first = some (high / 16) ∧ hexValue second = some (high % 16))
    (code : c.toNat = high * 256 + c.toNat % 256) (rest : List Char) :
    readChar (escapeCode [first, second] c ++ rest) = some (c, rest) := by
  have third := hexValue_digitChar (c.toNat / 16 % 16) (by omega)
  have fourth := hexValue_digitChar (c.toNat % 16) (by omega)
  have value : ((high / 16 * 16 + high % 16) * 16 + c.toNat / 16 % 16) * 16 + c.toNat % 16 =
      c.toNat := by
    omega
  have real : ¬ (0xD800 ≤ c.toNat ∧ c.toNat < 0xE000) := by
    have valid := c.valid
    simp only [UInt32.isValidChar, Nat.isValidChar] at valid
    change ¬ (0xD800 ≤ c.val.toNat ∧ c.val.toNat < 0xE000)
    omega
  simp only [escapeCode, List.cons_append, List.nil_append, readChar, ↓reduceIte, readCode,
    lead.1, lead.2, third, fourth, Option.bind_eq_bind, Option.bind_some, pure, value, readCoded,
    if_neg real, Char.ofNat_toNat]

/-- The escapes of `encoding/json` are undone by reading. -/
def escapingHTML : Escaping where
  escape := escape
  reads c rest := by
    unfold escape
    split
    · rename_i special
      rcases special with rfl | rfl <;> rfl
    split
    · rename_i newline
      rw [newline]
      rfl
    split
    · rename_i return_
      rw [return_]
      rfl
    split
    · rename_i tab
      rw [tab]
      rfl
    split
    · rename_i ascii
      refine readChar_escapeCode 0 ⟨rfl, rfl⟩ ?_ rest
      rcases ascii with control | rfl | rfl | rfl
      · omega
      · decide
      · decide
      · decide
    split
    · rename_i separator
      refine readChar_escapeCode 0x20 ⟨rfl, rfl⟩ ?_ rest
      rcases separator with rfl | rfl <;> decide
    · rename_i special _ _ _ ascii _
      have notSpecial : c ≠ '"' ∧ c ≠ '\\' := by simpa using special
      have notControl : ¬ c.toNat < 0x20 := fun control => ascii (.inl control)
      simp [readChar, notSpecial, notControl]

/-- A percent sign is written as it is, and stands for nothing else. -/
theorem keeps_percent : escapingHTML.Keeps '%' where
  escape d := by
    change '%' ∈ escape d ↔ _
    by_cases percent : d = '%'
    · rw [percent]
      decide
    · have digits : ∀ n < 16, '%' ≠ Nat.digitChar n := by decide
      have tens := digits (d.toNat / 16 % 16) (by omega)
      have ones := digits (d.toNat % 16) (by omega)
      have other : '%' ≠ d := fun same => percent same.symm
      simp only [escape, escapeCode, other, iff_false]
      repeat' split
      all_goals simp [tens, ones, other]
  outside := by decide
  digit := by decide

/-! ## Marshalling -/

/-- A time as JSON. -/
def timeJson (t : Time) : Json := .string t.rfc3339Nano

/-- A string as JSON. -/
def stringJson (s : String) : Json := .string s.toList

/-- An association as JSON. -/
def associationJson (a : Association) : Json :=
  .object [
    ("acronym".toList, stringJson a.acronym),
    ("host".toList, stringJson a.host),
    ("id".toList, .number a.id),
    ("name".toList, stringJson a.name),
    ("railsCreatedAt".toList, timeJson a.railsCreatedAt),
    ("railsUpdatedAt".toList, timeJson a.railsUpdatedAt)]

/-- An event as JSON. Its association has no tag and is named as in the record. -/
def eventJson (e : Event) : Json :=
  .object [
    ("Association".toList, associationJson e.association),
    ("associationId".toList, .number e.associationID),
    ("city".toList, stringJson e.city),
    ("discipline".toList, stringJson e.discipline),
    ("id".toList, .number e.id),
    ("name".toList, stringJson e.name),
    ("railsCreatedAt".toList, timeJson e.railsCreatedAt),
    ("railsId".toList, .number e.railsID),
    ("railsUpdatedAt".toList, timeJson e.railsUpdatedAt),
    ("startsAt".toList, timeJson e.startsAt),
    ("state".toList, stringJson e.state)]

/-- The times of an event. -/
def times (e : Event) : List Time :=
  [e.association.railsCreatedAt, e.association.railsUpdatedAt, e.railsCreatedAt,
    e.railsUpdatedAt, e.startsAt]

/-- The strings of an event. -/
def texts (e : Event) : List String :=
  [e.association.acronym, e.association.host, e.association.name, e.city, e.discipline, e.name,
    e.state]

/-- A time that marshals. -/
def Marshals (t : Time) : Prop := 0 ≤ t.year ∧ t.year ≤ 9999

instance (t : Time) : Decidable (Marshals t) := inferInstanceAs (Decidable (_ ∧ _))

/-- The text of some events. -/
def eventsText (events : List Event) : String :=
  String.ofList (text escapingHTML (.array (events.map eventJson)))

/-- The error of a time that does not marshal. -/
def yearOutOfRange : GoError :=
  .other ("json: error calling MarshalJSON for type time.Time: " ++
    "Time.MarshalJSON: year outside of range [0,9999]")

/-- `json.Marshal` of some events. -/
def marshal (events : List Event) : Except GoError String :=
  if ∀ e ∈ events, ∀ t ∈ times e, Marshals t then .ok (eventsText events)
  else .error yearOutOfRange

/-! ## Unmarshalling -/

/-- A string field. A `null` leaves it as it was. -/
def readStringField (old : String) : Json → Option String
  | .string characters => some (String.ofList characters)
  | .null => some old
  | _ => none

/-- An integer field. -/
def readIntField (old : ℤ) : Json → Option ℤ
  | .number value => some value
  | .null => some old
  | _ => none

/-- A time field. -/
def readTimeField (old : Time) : Json → Option Time
  | .string characters => parseTime characters
  | .null => some old
  | _ => none

/-- The members of an object, one after the other, into a record. -/
def readRecord {α : Type} (setField : α → String → Json → Option α) (into : α) :
    Json → Option α
  | .object members => members.foldlM (fun record member =>
      setField record (String.ofList (member.1.map Char.toLower)) member.2) into
  | .null => some into
  | _ => none

/-- Set the field with a name in lower case. Other names are passed over. -/
def setAssociationField (a : Association) (name : String) (value : Json) : Option Association :=
  match name with
  | "acronym" => (readStringField a.acronym value).map fun read => { a with acronym := read }
  | "host" => (readStringField a.host value).map fun read => { a with host := read }
  | "id" => (readIntField a.id value).map fun read => { a with id := read }
  | "name" => (readStringField a.name value).map fun read => { a with name := read }
  | "railscreatedat" =>
      (readTimeField a.railsCreatedAt value).map fun read => { a with railsCreatedAt := read }
  | "railsupdatedat" =>
      (readTimeField a.railsUpdatedAt value).map fun read => { a with railsUpdatedAt := read }
  | _ => some a

/-- Set the field with a name in lower case. -/
def setEventField (e : Event) (name : String) (value : Json) : Option Event :=
  match name with
  | "association" => (readRecord setAssociationField e.association value).map fun read =>
      { e with association := read }
  | "associationid" =>
      (readIntField e.associationID value).map fun read => { e with associationID := read }
  | "city" => (readStringField e.city value).map fun read => { e with city := read }
  | "discipline" =>
      (readStringField e.discipline value).map fun read => { e with discipline := read }
  | "id" => (readIntField e.id value).map fun read => { e with id := read }
  | "name" => (readStringField e.name value).map fun read => { e with name := read }
  | "railscreatedat" =>
      (readTimeField e.railsCreatedAt value).map fun read => { e with railsCreatedAt := read }
  | "railsid" => (readIntField e.railsID value).map fun read => { e with railsID := read }
  | "railsupdatedat" =>
      (readTimeField e.railsUpdatedAt value).map fun read => { e with railsUpdatedAt := read }
  | "startsat" => (readTimeField e.startsAt value).map fun read => { e with startsAt := read }
  | "state" => (readStringField e.state value).map fun read => { e with state := read }
  | _ => some e

/-- The events of a value. -/
def readEvents : Json → Option (List Event)
  | .array items => items.mapM (readRecord setEventField {})
  | .null => some []
  | _ => none

/-- `json.Unmarshal` of a text into a list of events. -/
def unmarshal (body : String) : Option (List Event) := (read body.toList).bind readEvents

/-! ## Reading events back -/

theorem readRecord_associationJson (a : Association) :
    readRecord setAssociationField {} (associationJson a) = some a ↔
      parseTime a.railsCreatedAt.rfc3339Nano = some a.railsCreatedAt ∧
        parseTime a.railsUpdatedAt.rfc3339Nano = some a.railsUpdatedAt := by
  obtain ⟨acronym, host, id, name, created, updated⟩ := a
  simp [readRecord, associationJson, setAssociationField, readStringField, readIntField,
    readTimeField, stringJson, timeJson, Option.bind_eq_some_iff]

theorem readRecord_eventJson (e : Event) :
    readRecord setEventField {} (eventJson e) = some e ↔
      readRecord setAssociationField {} (associationJson e.association) = some e.association ∧
        parseTime e.railsCreatedAt.rfc3339Nano = some e.railsCreatedAt ∧
        parseTime e.railsUpdatedAt.rfc3339Nano = some e.railsUpdatedAt ∧
        parseTime e.startsAt.rfc3339Nano = some e.startsAt := by
  obtain ⟨association, associationID, city, discipline, id, name, created, railsID, updated,
    starts, state⟩ := e
  simp only [eventJson]
  generalize associationJson association = json
  simp [readRecord, setEventField, readStringField, readIntField,
    readTimeField, stringJson, timeJson, Option.bind_eq_some_iff]

/-- An event is read back as it was when the offsets of its times are written in
full. -/
theorem readRecord_eventJson_iff {e : Event} (marshals : ∀ t ∈ times e, Marshals t) :
    readRecord setEventField {} (eventJson e) = some e ↔ ∀ t ∈ times e, InMinutes t.offset := by
  have read : ∀ t ∈ times e, parseTime t.rfc3339Nano = some t ↔ InMinutes t.offset :=
    fun t member => parseTime_rfc3339Nano t (marshals t member)
  rw [readRecord_eventJson, readRecord_associationJson, read _ (by simp [times]),
    read _ (by simp [times]), read _ (by simp [times]), read _ (by simp [times]),
    read _ (by simp [times])]
  simp only [times, List.forall_mem_cons, List.not_mem_nil, false_imp_iff, implies_true, and_true,
    and_assoc]

theorem mapM_readRecord (events : List Event) :
    (events.map eventJson).mapM (readRecord setEventField {}) = some events ↔
      ∀ e ∈ events, readRecord setEventField {} (eventJson e) = some e := by
  induction events with
  | nil => simp
  | cons e events ih =>
      simp only [List.map_cons, List.mapM_cons, List.forall_mem_cons, ← ih]
      simp [Option.bind_eq_some_iff]

/-- **Events are read back** as they were when the offsets of all their times are
written in full, and never otherwise. -/
theorem unmarshal_eventsText {events : List Event}
    (marshals : ∀ e ∈ events, ∀ t ∈ times e, Marshals t) :
    unmarshal (eventsText events) = some events ↔
      ∀ e ∈ events, ∀ t ∈ times e, InMinutes t.offset := by
  rw [unmarshal, eventsText, String.toList_ofList, read_text, Option.bind_some, readEvents,
    mapM_readRecord]
  exact forall₂_congr fun e member => readRecord_eventJson_iff (marshals e member)

/-! ## Percent signs -/

theorem strings_eventJson (e : Event) :
    (∃ characters ∈ (eventJson e).strings, '%' ∈ characters) ↔ ∃ s ∈ texts e, '%' ∈ s.toList := by
  have noTime : ∀ t : Time, '%' ∉ t.rfc3339Nano := fun t =>
    not_mem_rfc3339Nano (by decide) (by decide) t
  simp [eventJson, associationJson, stringJson, timeJson, Json.strings, membersStrings, texts,
    noTime]

/-- A percent sign of the text is one of a string of the events. -/
theorem percent_mem_eventsText (events : List Event) :
    '%' ∈ (eventsText events).toList ↔ ∃ e ∈ events, ∃ s ∈ texts e, '%' ∈ s.toList := by
  rw [eventsText, String.toList_ofList, keeps_percent.mem_text, Json.strings]
  induction events with
  | nil => simp [itemsStrings]
  | cons e events ih =>
      simp only [List.map_cons, itemsStrings, List.mem_append, or_and_right, exists_or,
        strings_eventJson, ih, List.exists_mem_cons_iff]

end DawnPatrol.Http

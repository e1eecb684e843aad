import DawnPatrol.Logfmt.Loggers
import DawnPatrol.Logfmt.Logs

/-!
# The log of requests

Every request is logged before it is handled, with the time, its method and its
URL. A method and a URL are whatever bytes a client has sent. The log is still one
line for each request, from which its time and the runes of its method and its URL
are read back (`requestLog_reads_back_iff`): no request can forge a line of another
one.

Only the length of a URL can spoil the log for a reader, because a scanner has
room for lines of less than 64 KiB.
-/

set_option autoImplicit false

namespace DawnPatrol.Http

open Go Logfmt

/-! ## Logging a request -/

/-- A request as it is logged: when, by which method and for which URL, as
`URL.String` writes it. -/
structure LoggedRequest where
  time : Time
  method : Bytes
  url : Bytes

/-- `Time.UTC`. -/
def utc (t : Time) : Time := { t with offset := 0 }

/-- `DefaultTimestampUTC`. A `timeFormat` marshals itself in the layout `RFC3339Nano`. -/
def defaultTimestampUTC : Field :=
  .valuer fun now =>
    let text := utf8 (utc now).rfc3339Nano
    .unsupported { marshalText := some (.ok (some text)), string := some (some text) }

/-- A string constant. -/
def constant (text : String) : Field := .value (.string (utf8 text.toList))

/-- The logger of `Request`. -/
def requestLogger : Logger := Logger.logfmt.withKeyvals [constant "at", defaultTimestampUTC]

/-- `r.URL` as a value: a pointer to a structure with the method `String`. -/
def urlValue (url : Bytes) : Value :=
  .pointer { string := some (some url) } (.unsupported {})

/-- What `Request` logs of a request, in one call of its writer. -/
def logRequest (r : LoggedRequest) : Except EncodeError (List Char) :=
  requestLogger.log r.time
    [constant "component", constant "http", constant "method", .value (.string r.method),
      constant "url", .value (urlValue r.url)]

/-- The log of some requests, in the order in which their calls took the lock of the
writer. -/
def requestLog (requests : List LoggedRequest) : List Char :=
  requests.flatMap fun r => (logRequest r).toOption.getD []

/-! ## Reading the log -/

/-- The record of a request. -/
def LoggedRequest.record (r : LoggedRequest) : List Pair :=
  [("at".toList, (utc r.time).rfc3339Nano), ("component".toList, "http".toList),
    ("method".toList, runes r.method), ("url".toList, runes r.url)]

/-- A request as it is read. -/
structure ReadRequest where
  time : Time
  method : List Char
  url : List Char

/-- The request of a record, if it is one. -/
def readRequest : List Pair → Option ReadRequest
  | [(atKey, time), (componentKey, component), (methodKey, method), (urlKey, url)] =>
      if atKey = "at".toList ∧ componentKey = "component".toList ∧
          component = "http".toList ∧ methodKey = "method".toList ∧ urlKey = "url".toList then
        (parseTime time).map fun time => ⟨time, method, url⟩
      else none
  | _ => none

/-- What is to be read of a request: its time in UTC, and the runes of the rest. -/
def LoggedRequest.shown (r : LoggedRequest) : ReadRequest :=
  ⟨utc r.time, runes r.method, runes r.url⟩

/-- The keys and values that a request is logged with. -/
def LoggedRequest.keyvals (r : LoggedRequest) : List Value :=
  ([constant "at", defaultTimestampUTC.bound r.time, constant "component", constant "http",
    constant "method", .value (.string r.method), constant "url",
    .value (urlValue r.url)] : List Field).map Field.plain

/-- The logger of `Request` keeps the time, whichever it is. -/
theorem keeps_requestLogger :
    Keeps requestLogger [constant "at", defaultTimestampUTC] :=
  keeps_build [.after [constant "at", defaultTimestampUTC]]

theorem logRequest_eq (r : LoggedRequest) : logRequest r = logLine r.keyvals := by
  rw [logRequest, keeps_requestLogger.log, if_neg (List.cons_ne_nil _ _), completed,
    if_neg (by simp)]
  rfl

theorem pairs_keyvals (r : LoggedRequest) : pairs r.keyvals = .ok r.record := by
  have time := runes_utf8 (utc r.time).rfc3339Nano
  rw [LoggedRequest.record, ← time]
  rfl

theorem readRequest_record {r : LoggedRequest}
    (year : 0 ≤ (utc r.time).year ∧ (utc r.time).year ≤ 9999) :
    readRequest r.record = some r.shown := by
  have inMinutes : InMinutes (utc r.time).offset := by simp [utc, InMinutes]
  have time := (parseTime_rfc3339Nano (utc r.time) year).mpr inMinutes
  simp only [readRequest, LoggedRequest.record, and_self, if_true, time]
  rfl

theorem requestLog_eq (requests : List LoggedRequest) :
    requestLog requests = written (requests.map LoggedRequest.keyvals) := by
  rw [requestLog, written, List.flatMap_map]
  simp only [logRequest_eq]

theorem recorded_requests (requests : List LoggedRequest) :
    recorded (requests.map LoggedRequest.keyvals) = requests.map LoggedRequest.record := by
  have each : (fun keyvals => (pairs keyvals).toOption) ∘ LoggedRequest.keyvals =
      some ∘ LoggedRequest.record := by
    funext r
    simp only [Function.comp_apply, pairs_keyvals]
    rfl
  rw [recorded, List.filterMap_map, each, List.filterMap_eq_map]

/-- **The log of requests is read back**, one request from every line and each with its
own time and the runes of its method and URL, exactly if the scanner has room for
every line. -/
theorem requestLog_reads_back_iff (requests : List LoggedRequest)
    (years : ∀ r ∈ requests, 0 ≤ (utc r.time).year ∧ (utc r.time).year ≤ 9999) :
    ((parse (requestLog requests)).1.map readRequest = requests.map (some ∘ LoggedRequest.shown) ∧
      (parse (requestLog requests)).2 = none) ↔ ∀ r ∈ requests, Fits (logRequest r) := by
  obtain ⟨lines, text, records, room⟩ := written_lines (requests.map LoggedRequest.keyvals)
  obtain ⟨noError, whole⟩ := parse_lines_iff lines
  rw [List.forall_mem_map] at room
  simp only [← logRequest_eq] at room
  rw [requestLog_eq, text]
  constructor
  · intro read
    exact room.mp (noError.mp read.2)
  · intro all
    rw [whole (room.mpr all), ← records, recorded_requests, List.map_map]
    refine ⟨List.map_congr_left ?_, rfl⟩
    intro r member
    exact readRequest_record (years r member)

/-- A request whose URL looks like the end of its line and the start of another one, and
has a byte that is no UTF-8. -/
def forgingRequest : LoggedRequest where
  time := Time.zero
  method := utf8 "GET".toList
  url := utf8 "/ \nat=0 component=http method=\"POST\"".toList ++ [0xBD]

theorem forging_request_is_read_back :
    (parse (requestLog [forgingRequest])).1.map readRequest = [some forgingRequest.shown] ∧
      (parse (requestLog [forgingRequest])).2 = none := by
  refine (requestLog_reads_back_iff [forgingRequest] ?_).mpr ?_
  · intro r member
    rw [List.mem_singleton.mp member]
    decide
  · intro r member text same
    rw [List.mem_singleton.mp member] at same
    cases same
    decide

end DawnPatrol.Http

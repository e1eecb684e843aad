import DawnPatrol.Go.Fmt
import DawnPatrol.Http.EventJSON
import DawnPatrol.RailsDb.CopyEffect

/-!
# The HTTP handlers

The handlers of packages `http` and `rails/http`, and the two wrappers the
multiplexer puts around each of them: the recovery of the vendored Sentry
client, and the transaction of New Relic. The recovery asserts that the value
of a panic is an error, and panics itself when it is not
(`recoveryHandler`). The end of a transaction lets a panic pass
(`newInstrumentedHandler_eq`).
-/

set_option autoImplicit false

namespace DawnPatrol.Http

open Foundation Go Api Execution

/-- What the handlers read of a request. -/
structure Request where
  host : String := ""
  postFormValue : String → String := fun _ => ""

/-- The `ServeHTTP` of a handler, which answers through the response writer. -/
abbrev Handler := Request → GoM Unit

/-- `fmt.Fprintf(w, format)`. -/
def fprintf (format : String) : GoM Unit := perform (.write (Fmt.sprintf format))

/-! ## The handlers -/

/-- Marshals events to a JSON string. -/
structure EventJSON where
  marshal : List Event → Except GoError String

/-- The implementation with `json.Marshal`. -/
def defaultEventJSON : EventJSON where
  marshal := marshal

/-- Returns the events of an association as JSON. -/
structure Root where
  associationService : AssociationService
  eventJSON : EventJSON
  eventService : EventService

namespace Root

/-- The events of the association that the host resolves to. -/
def findEvents (h : Root) (r : Request) : GoM (List Event) := do
  match ← h.associationService.firstByHost r.host with
  | (_, some err) => raise (.error err)
  | (association, none) =>
      match ← h.eventService.find association with
      | (_, some err) => raise (.error err)
      | (events, none) => return events

/-- Write events as the response. -/
def writeEvents (h : Root) (events : List Event) : GoM Unit := do
  match h.eventJSON.marshal events with
  | .error err => raise (.error err)
  | .ok jsonOut => do
      perform (.setHeader "Content-Type" "application/json")
      fprintf jsonOut

def serveHTTP (h : Root) : Handler := fun r => do
  let events ← h.findEvents r
  h.writeEvents events

end Root

/-- The handler of the index. -/
def newRoot (as : AssociationService) (es : EventService) : Root where
  associationService := as
  eventJSON := defaultEventJSON
  eventService := es

/-- Starts a copy of Racing on Rails data. -/
structure Copy where
  racingAssociationService : Rails.RacingAssociationService

def Copy.serveHTTP (h : Copy) : Handler := fun r => do
  let association := r.postFormValue "association"
  if association = "" then perform (.writeHeader 400)
  else
    match ← h.racingAssociationService.copy association with
    | some err => raise (.error err)
    | none => return ()

/-- The handler that always panics. -/
def TestPanic.serveHTTP : Handler := fun _ => raise (.string "Parsing failed")

/-- The handler that tells that the server is up. -/
def Status.serveHTTP : Handler := fun _ => fprintf "ok"

/-! ## The wrappers -/

/-- The text of the value of a panic, as `fmt.Sprint` writes it. -/
def sprint : PanicValue → String
  | .error err => err.error
  | .string text => text
  | .nilDereference => "runtime error: invalid memory address or nil pointer dereference"
  | .typeAssertion message => message

/-- The runtime error of a type assertion to `error` on a string. -/
def stringIsNotError : PanicValue :=
  .typeAssertion "interface conversion: string is not error: missing method Error"

/-- `raven.RecoveryHandler`: captures a panic and answers 500. The stack trace is
asked for with `rval.(error)`. -/
def recoveryHandler (handler : Handler) : Handler := fun r =>
  Program.recovering
    (fun rval => do
      if rval.isError then
        perform (.capture (sprint rval))
        perform (.writeHeader 500)
      else raise stringIsNotError)
    (handler r)

/-- The deferred `txn.End()`: it takes a panic down and panics again with its
value. -/
def endingTransaction (handler : GoM Unit) : GoM Unit := Program.recovering raise handler

/-- Instruments a handler: a transaction of New Relic, when there is an
application, around the recovery. -/
def newInstrumentedHandler (newRelicApp : Bool) (h : Handler) : Handler := fun r =>
  let rh := recoveryHandler h
  if newRelicApp then endingTransaction (rh r) else rh r

/-! ## The multiplexer -/

/-- The dependencies of the multiplexer. -/
structure MuxConfig where
  associationService : AssociationService
  eventService : EventService
  newRelicApp : Bool
  racingAssociationService : Rails.RacingAssociationService

/-- A pattern with the handler of its requests. -/
structure Route where
  method : String
  path : String
  handler : Handler

/-- The routes, before their handlers are instrumented. -/
def routes (cfg : MuxConfig) : List Route := [
  ⟨"GET", "/index.json", (newRoot cfg.associationService cfg.eventService).serveHTTP⟩,
  ⟨"GET", "/panic", TestPanic.serveHTTP⟩,
  ⟨"POST", "/rails/copy", (Copy.mk cfg.racingAssociationService).serveHTTP⟩,
  ⟨"GET", "/status", Status.serveHTTP⟩]

/-- The routes of the multiplexer. -/
def newMux (cfg : MuxConfig) : List Route :=
  (routes cfg).map fun route =>
    { route with handler := newInstrumentedHandler cfg.newRelicApp route.handler }

/-- Each route of the multiplexer is one of the routes, with its handler
instrumented. -/
theorem wrapped_of_mem_zip {cfg : MuxConfig} {route served : Route}
    (wrapped : (route, served) ∈ (routes cfg).zip (newMux cfg)) :
    route ∈ routes cfg ∧ served.handler = newInstrumentedHandler cfg.newRelicApp route.handler := by
  obtain ⟨place, inside, same⟩ := List.getElem_of_mem wrapped
  rw [List.getElem_zip] at same
  obtain ⟨rfl, rfl⟩ := Prod.mk.inj same
  refine ⟨List.getElem_mem _, ?_⟩
  simp only [newMux, List.getElem_map]

/-- The dependencies that `main` hands to the multiplexer. -/
def muxConfig (env : Environment) (newRelicApp : Bool) : MuxConfig where
  associationService := Db.associationService
  eventService := Db.eventService
  newRelicApp := newRelicApp
  racingAssociationService := RailsDb.racingAssociationService env

/-! ## How a copy request ends -/

/-- The handler panics with the error of a copy, and lets its panic pass. -/
def copyEnding : Except PanicValue (Option GoError) → Except PanicValue Unit
  | .ok none => .ok ()
  | .ok (some err) => .error (.error err)
  | .error panic => .error panic

theorem copyEnding_eq_ok {outcome : Except PanicValue (Option GoError)} :
    copyEnding outcome = .ok () ↔ outcome = .ok none := by
  rcases outcome with panic | _ | err
  · simp [copyEnding]
  · simp [copyEnding]
  · simp [copyEnding]

/-- **A copy request with a name** ends as its copy does. -/
theorem run_copy_serveHTTP {env : Environment} {r : Request}
    (named : r.postFormValue "association" ≠ "") (m : Machine) :
    ∃ (conns : List Conn) (nextConn : ℕ) (script : Script),
      run env ((Copy.mk (RailsDb.racingAssociationService env)).serveHTTP r) m =
        let acronym := r.postFormValue "association"
        let effect := RailsDb.copyEffect env m.script
          (m.world.rails (Db.databaseURL env acronym)) acronym m.world.store
        (copyEnding effect.1,
          ⟨{ m.world with store := effect.2, conns := conns, nextConn := nextConn }, script⟩) := by
  obtain ⟨conns, nextConn, script, ran⟩ := RailsDb.run_copy env (r.postFormValue "association") m
  refine ⟨conns, nextConn, script, ?_⟩
  simp only [Copy.serveHTTP, if_neg named, RailsDb.racingAssociationService, Program.bind_eq,
    run_bind, ran]
  rcases (RailsDb.copyEffect env m.script
    (m.world.rails (Db.databaseURL env (r.postFormValue "association")))
    (r.postFormValue "association") m.world.store).1 with panic | _ | err
  · rfl
  · rfl
  · rfl

/-! ## What the wrappers do -/

/-- **A transaction changes nothing about its handler.** -/
theorem newInstrumentedHandler_eq (newRelicApp : Bool) (h : Handler) (r : Request) :
    newInstrumentedHandler newRelicApp h r = recoveryHandler h r := by
  simp only [newInstrumentedHandler, endingTransaction, Program.recovering_raise, ite_self]

/-- The recovery of a handler that panics answers 500 when the value of the panic
is an error and nothing has been answered before. Otherwise it panics. -/
theorem run_recoveryHandler {env : Environment} {handler : Handler} {r : Request}
    {m later : Machine} {panic : PanicValue}
    (panics : run env (handler r) m = (.error panic, later)) :
    ∃ after, run env (recoveryHandler handler r) m =
        (if panic.isError then .ok () else .error stringIsNotError, after) ∧
      (panic.isError = true → after.world.response.finalStatus =
        later.world.response.status.getD 500) := by
  simp only [recoveryHandler, run_recovering, panics]
  cases panic.isError with
  | true => exact ⟨_, rfl, fun _ => rfl⟩
  | false => exact ⟨_, rfl, fun impossible => by cases impossible⟩

end DawnPatrol.Http

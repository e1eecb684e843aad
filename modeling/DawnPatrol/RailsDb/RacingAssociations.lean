import DawnPatrol.Db.AssociationService
import DawnPatrol.Db.Databases
import DawnPatrol.Db.EventService

/-!
# Copying an association from Racing on Rails

The services of package `rails/db`. `Copy` reads the events of an association
from its Rails database and the racing association with its short name, finds
or creates the association in the Dawn Patrol store, gives every event the time
zone of the association, and inserts the events.

What a copy does to the store is a function of the faults of its calls, of the
Rails database and of the store it starts from (`copyEffect`, `run_copy`).
-/

set_option autoImplicit false

namespace DawnPatrol.RailsDb

open Foundation Go Postgres Execution Db Rails

/-! ## The services -/

/-- Converts a date to the time zone of the association, with the fields in the
order in which the source hands them to `time.Date`. -/
def toAssociationTimeZone (date : Time) : GoM (Time × Option GoError) := do
  match ← perform (.loadLocation "America/Los_Angeles") with
  | .error err => return (date, some err)
  | .ok pacific =>
      return (Go.date date.year date.month date.day date.minute date.hour date.second
        date.nanosecond pacific, none)

namespace EventService

/-- Finds all events in a Rails database. -/
def find (env : Environment) (association : String) : GoM (List Event) := do
  let db ← Databases.for env association
  Program.deferring (perform (.closeConn db)) do
    let (events, _) ← perform (.findRailsEvents db)
    return events

end EventService

namespace RacingAssociationService

/-- Finds a racing association by its short name. The pool it opens is left
open. -/
def find (env : Environment) (shortName : String) :
    GoM (RacingAssociation × Option GoError) := do
  let db ← Databases.for env shortName
  perform (.firstRacingAssociation db shortName)

/-- The association a racing association is copied to. -/
def copiedAssociation (env : Environment) (associationAcronym : String)
    (racingAssociation : RacingAssociation) : Api.Association where
  acronym := associationAcronym
  host := "0.0.0.0|localhost|" ++ env.unicode.lower racingAssociation.shortName ++ ".web"
  name := racingAssociation.shortName
  railsCreatedAt := racingAssociation.createdAt
  railsUpdatedAt := racingAssociation.updatedAt

/-- The event a Rails event is copied to, with the date it starts at. -/
def copiedEvent (associationID : ℤ) (e : Event) (date : Time) : Api.Event where
  associationID := associationID
  city := e.city
  discipline := e.discipline
  name := e.name
  railsID := e.id
  railsCreatedAt := e.createdAt
  railsUpdatedAt := e.updatedAt
  startsAt := date
  state := e.state

/-- The events of a copy, or the error of the first date that is not converted. -/
def copiedEvents (associationID : ℤ) : List Event → GoM (Except GoError (List Api.Event))
  | [] => return .ok []
  | e :: railsEvents => do
      match ← toAssociationTimeZone e.date with
      | (_, some err) => return .error err
      | (date, none) =>
          let events ← copiedEvents associationID railsEvents
          return events.map (copiedEvent associationID e date :: ·)

section Copy

variable (env : Environment) (apiEventService : Api.EventService)
  (associationService : Api.AssociationService)

/-- What a copy writes, once it has read the events and the racing association. -/
def writeCopy (associationAcronym : String) (railsEvents : List Event)
    (racingAssociation : RacingAssociation) : GoM (Option GoError) := do
  let association ← associationService.firstOrCreate
    (copiedAssociation env associationAcronym racingAssociation)
  match ← copiedEvents association.id railsEvents with
  | .error err => return some err
  | .ok events =>
      let _ ← apiEventService.create events
      return none

/-- What a copy does with the connection it has opened. -/
def copyFrom (db : Conn) (associationAcronym : String) : GoM (Option GoError) := do
  let (railsEvents, _) ← perform (.findRailsEvents db)
  match ← find env associationAcronym with
  | (_, some err) => return some err
  | (racingAssociation, none) =>
      writeCopy env apiEventService associationService associationAcronym railsEvents
        racingAssociation

/-- Copies the events of an association to the Dawn Patrol database. -/
def copy (associationAcronym : String) : GoM (Option GoError) := do
  let db ← Databases.for env associationAcronym
  Program.deferring (perform (.closeConn db))
    (copyFrom env apiEventService associationService db associationAcronym)

end Copy

end RacingAssociationService

/-- The racing association service of the program. -/
def racingAssociationService (env : Environment) : Rails.RacingAssociationService where
  copy := RacingAssociationService.copy env eventService associationService
  find := RacingAssociationService.find env

/-- A copy by the program. -/
abbrev copyRequest (env : Environment) (acronym : String) : GoM (Option GoError) :=
  RacingAssociationService.copy env eventService associationService acronym

/-! ## The calls of a copy -/

section Only

variable {allowed : Call → Prop}

theorem find_only {env : Environment} {acronym : String}
    (opens : allowed (.openConn (databaseDriver (databaseURL env acronym))
      (databaseURL env acronym)))
    (finds : ∀ db, allowed (.firstRacingAssociation db acronym)) :
    (RacingAssociationService.find env acronym).Only allowed :=
  (for_only opens).bind fun db => ⟨finds db, fun _ => trivial⟩

/-- Converting the events makes no call but to load their time zone. -/
theorem copiedEvents_only (loads : allowed (.loadLocation "America/Los_Angeles"))
    (associationID : ℤ) (railsEvents : List Event) :
    (RacingAssociationService.copiedEvents associationID railsEvents).Only allowed := by
  induction railsEvents with
  | nil => exact trivial
  | cons e railsEvents ih =>
      refine ⟨loads, fun loaded => ?_⟩
      cases loaded with
      | error err => exact trivial
      | ok pacific => exact ih.bind fun _ => trivial

end Only

end DawnPatrol.RailsDb

import DawnPatrol.Go.Time
import DawnPatrol.Go.Values

/-!
# The Racing on Rails database

The records of package `rails` and the tables they are read from. A row is
given as gorm scans it, with the zero value in place of a `NULL`.
-/

set_option autoImplicit false

namespace DawnPatrol.Rails

open Go

/-- A bike race in the Rails database. -/
structure Event where
  city : String := ""
  createdAt : Time := .zero
  date : Time := .zero
  discipline : String := ""
  id : ℤ := 0
  name : String := ""
  state : String := ""
  updatedAt : Time := .zero
  deriving DecidableEq

/-- A racing association in the Rails database. -/
structure RacingAssociation where
  createdAt : Time := .zero
  id : ℤ := 0
  name : String := ""
  shortName : String := ""
  updatedAt : Time := .zero
  deriving DecidableEq

/-- The tables of one Rails database, with their primary keys. -/
structure RailsDatabase where
  events : List Event
  racingAssociations : List RacingAssociation
  events_pkey : (events.map Event.id).Nodup
  racingAssociations_pkey : (racingAssociations.map RacingAssociation.id).Nodup

/-- A database with one racing association. -/
def RailsDatabase.ofAssociation (shortName : String) (events : List Event)
    (unique : (events.map Event.id).Nodup) : RailsDatabase where
  events := events
  racingAssociations := [{ id := 1, name := shortName, shortName := shortName }]
  events_pkey := unique
  racingAssociations_pkey := by simp

end DawnPatrol.Rails

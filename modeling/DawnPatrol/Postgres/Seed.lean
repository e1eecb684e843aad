import DawnPatrol.Postgres.Store

/-!
# The seed

The statements of `seed.sql`. It empties both tables, inserts one association
with an id of its own, and inserts the events of that association, which draw
theirs. `psql` runs it with `ON_ERROR_STOP`, each statement in a transaction of
its own, so the seed may end after any of its statements.

On a new database all of them succeed, and leave `Store.seeded`
(`execAll_seed`).
-/

set_option autoImplicit false

namespace DawnPatrol.Postgres

namespace Store

/-- `DELETE FROM events`. -/
def deleteEvents (st : Store) : Store :=
  { st with
    events := []
    eventsPkey := List.nodup_nil
    eventsAssociationID := fun _ member => absurd member List.not_mem_nil }

/-- `DELETE FROM associations`, which any event refuses. -/
def deleteAssociations (st : Store) : Except Constraint Store :=
  if unowned : st.events = [] then
    .ok { st with
      associations := []
      associationsPkey := List.nodup_nil
      associationsAcronymIdx := List.nodup_nil
      associationsHostIdx := List.nodup_nil
      associationsNameIdx := List.nodup_nil
      eventsAssociationID := fun _ member => absurd (unowned ▸ member) List.not_mem_nil }
  else .error .eventsAssociationID

end Store

/-- A statement of `seed.sql`. -/
inductive SeedStatement where
  | deleteEvents
  | deleteAssociations
  | insertAssociation
  | insertEvent (name : String) (startsAt : Timestamptz)
  deriving DecidableEq

/-- The association of the seed. -/
def seededAssociation : AssociationRow where
  id := 1
  acronym := "CBRA"
  name := "Cascadia Bicycle Racing Association"
  host := "0.0.0.0|localhost|cbra.local"
  railsCreatedAt := none
  railsUpdatedAt := none

/-- What a statement of the seed makes of a store, and whether it succeeds. A
statement that fails may have drawn an id. -/
def SeedStatement.exec : SeedStatement → Store → Bool × Store
  | deleteEvents, st => (true, st.deleteEvents)
  | deleteAssociations, st =>
      match st.deleteAssociations with
      | .ok next => (true, next)
      | .error _ => (false, st)
  | insertAssociation, st =>
      match st.insertAssociation seededAssociation with
      | .ok next => (true, next)
      | .error _ => (false, st)
  | insertEvent name startsAt, st =>
      match st.drawEventID.insertEvent (Store.seededEvent st.eventsIDSeq name startsAt) with
      | .ok next => (true, next)
      | .error _ => (false, st.drawEventID)

/-- `seed.sql`. -/
def seedSql : List SeedStatement := [
  .deleteEvents,
  .deleteAssociations,
  .insertAssociation,
  .insertEvent "Hellyer Challenge" 1483171200000000,
  .insertEvent "Aplenrose Velodrome Challenge" 1483948800000000,
  .insertEvent "Copperopolis Road Race" 1500969600000000,
  .insertEvent "Tour of the Gila" 1514793600000000]

/-- Run statements up to the first that fails. -/
def execAll : List SeedStatement → Store → Store
  | [], st => st
  | statement :: statements, st =>
      match statement.exec st with
      | (true, next) => execAll statements next
      | (false, next) => next

/-- **The seed of a new database** leaves the seeded store. -/
theorem execAll_seed : execAll seedSql .empty = .seeded := by
  apply Store.ext <;> decide

end DawnPatrol.Postgres

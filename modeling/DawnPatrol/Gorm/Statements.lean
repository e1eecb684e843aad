import DawnPatrol.Postgres.HostPattern
import DawnPatrol.Postgres.Store

/-!
# What gorm makes of the records

The queries and the create callback of the vendored gorm, on the tables of the
store. `First` orders by the primary key, restricts by the conditions and, when
the destination has an id, by that id. `Create` leaves a blank id to the
sequence, and runs in one transaction: when one of its statements fails, the
tables are as before and only drawn ids are gone.

An event belongs to its association: before an event is inserted, a nested
association that is not blank is saved, and its id becomes the foreign key.
-/

set_option autoImplicit false

namespace DawnPatrol.Gorm

open Foundation Go Api Postgres

/-! ## Rows and records -/

/-- The row an association is inserted or updated as. -/
def associationRow (a : Association) (id : ℤ) : AssociationRow where
  id := id
  acronym := a.acronym
  name := a.name
  host := a.host
  railsCreatedAt := some (timestamptz a.railsCreatedAt)
  railsUpdatedAt := some (timestamptz a.railsUpdatedAt)

/-- The row an event is inserted as. -/
def eventRow (e : Event) (id associationID : ℤ) : EventRow where
  id := id
  city := some e.city
  discipline := e.discipline
  name := e.name
  railsID := some e.railsID
  railsCreatedAt := some (timestamptz e.railsCreatedAt)
  railsUpdatedAt := some (timestamptz e.railsUpdatedAt)
  startsAt := timestamptz e.startsAt
  state := some e.state
  associationID := associationID

/-- A timestamp as the driver reads it, in the time zone of the session. -/
def scanTime (sessionOffset : Timestamptz → ℤ) (stamp : Timestamptz) : Time :=
  ⟨stamp / 1000000, (stamp % 1000000).toNat * 1000, sessionOffset stamp, by omega⟩

/-- Scan a row into an association. A `NULL` leaves its field alone. -/
def scanAssociation (sessionOffset : Timestamptz → ℤ) (into : Association)
    (row : AssociationRow) : Association where
  acronym := row.acronym
  host := row.host
  id := row.id
  name := row.name
  railsCreatedAt := (row.railsCreatedAt.map (scanTime sessionOffset)).getD into.railsCreatedAt
  railsUpdatedAt := (row.railsUpdatedAt.map (scanTime sessionOffset)).getD into.railsUpdatedAt

/-- Scan a row into a new event. -/
def scanEvent (sessionOffset : Timestamptz → ℤ) (row : EventRow) : Event where
  associationID := row.associationID
  city := row.city.getD ""
  discipline := row.discipline
  id := row.id
  name := row.name
  railsCreatedAt := (row.railsCreatedAt.map (scanTime sessionOffset)).getD .zero
  railsID := row.railsID.getD 0
  railsUpdatedAt := (row.railsUpdatedAt.map (scanTime sessionOffset)).getD .zero
  startsAt := scanTime sessionOffset row.startsAt
  state := row.state.getD ""

/-! ## Queries -/

/-- A condition of `Where`: a record, of which every field that is not blank
restricts its column, or `? ~* host` with a host. -/
inductive Condition where
  | fields (value : Association)
  | hostMatches (host : String)

/-- A stored timestamp is that of a time. -/
def stampIs (t : Time) (stamp : Option Timestamptz) : Bool := stamp == some (timestamptz t)

/-- Whether a condition selects a row, with the operator of the database. -/
def Condition.selects (operator : HostOperator) : Condition → AssociationRow → Bool
  | fields value, row =>
      (value.acronym == "" || row.acronym == value.acronym) &&
      (value.host == "" || row.host == value.host) &&
      (value.id == 0 || row.id == value.id) &&
      (value.name == "" || row.name == value.name) &&
      (value.railsCreatedAt == .zero || stampIs value.railsCreatedAt row.railsCreatedAt) &&
      (value.railsUpdatedAt == .zero || stampIs value.railsUpdatedAt row.railsUpdatedAt)
  | hostMatches host, row => operator.matchesHost host row.host

/-- `Where(condition).First(&dest)`. -/
def firstAssociation (operator : HostOperator) (condition : Condition) (dest : Association)
    (st : Store) : Option AssociationRow :=
  firstBy AssociationRow.id
    (fun row => condition.selects operator row && (dest.id == 0 || row.id == dest.id))
    st.associations

/-- `Where("association_id = ?", id).Find(&events)`. -/
def findEvents (id : ℤ) (st : Store) : List EventRow :=
  st.events.filter fun row => row.associationID == id

/-! ## `Create` and `Save` of an association -/

/-- `Create(&a)`. -/
def createAssociation (st : Store) (a : Association) :
    (Association × Option GoError) × Store :=
  let id := if a.id = 0 then st.associationsIDSeq else a.id
  let drawn := if a.id = 0 then st.drawAssociationID else st
  match drawn.insertAssociation (associationRow a id) with
  | .ok stored => (({ a with id := id }, none), stored)
  | .error constraint => ((a, some constraint.error), drawn)

/-- `Save(&a)`: an update when the association has an id, and an insert with
that id when the update affected no row. -/
def saveAssociation (st : Store) (a : Association) : (Association × Option GoError) × Store :=
  if a.id = 0 then createAssociation st a
  else if a.id ∈ st.associations.map AssociationRow.id then
    match st.updateAssociation (associationRow a a.id) with
    | .ok stored => ((a, none), stored)
    | .error constraint => ((a, some constraint.error), st)
  else createAssociation st a

/-! ## `Create` of an event -/

/-- The save of the nested association, when it is not blank. The result is the
foreign key the event is inserted with. -/
def saveBeforeAssociations (st : Store) (e : Event) : (ℤ × Option GoError) × Store :=
  if e.association = {} then ((e.associationID, none), st)
  else
    match saveAssociation st e.association with
    | ((saved, none), stored) => ((saved.id, none), stored)
    | ((_, some err), stored) => ((e.associationID, some err), stored)

/-- `Create(&e)`. -/
def createEvent (st : Store) (e : Event) : (Event × Option GoError) × Store :=
  match saveBeforeAssociations st e with
  | ((_, some err), saved) => ((e, some err), st.rolledBack saved)
  | ((owner, none), saved) =>
      let id := if e.id = 0 then saved.eventsIDSeq else e.id
      let drawn := if e.id = 0 then saved.drawEventID else saved
      match drawn.insertEvent (eventRow e id owner) with
      | .ok stored => (({ e with id := id, associationID := owner }, none), stored)
      | .error constraint => ((e, some constraint.error), st.rolledBack drawn)

end DawnPatrol.Gorm

import DawnPatrol.Foundation.KeyedRows
import DawnPatrol.Api.Records

/-!
# The Dawn Patrol database

The tables `associations` and `events` of `schema.sql` with their sequences.
A store carries the constraints of the schema as fields under the names the
schema gives them, so a statement that would break one cannot produce a store:
an insert or an update either yields the next store or the constraint that
refuses it.

The specifications of the statements say when a row is accepted and what the
tables then hold (`insertAssociation_eq_ok`, `insertEvent_eq_ok`).
-/

set_option autoImplicit false

namespace DawnPatrol.Postgres

open Foundation Go

/-! ## Columns and rows -/

/-- A timestamp with time zone: microseconds since 1970 UTC. -/
abbrev Timestamptz := ℤ

/-- The timestamp of a time, rounded to the nearest microsecond, and to the
even one from half way. The location is not stored. -/
def timestamptz (t : Time) : Timestamptz :=
  let nanoseconds := t.sec * 1000000000 + t.nsec
  let below := nanoseconds / 1000
  let rest := nanoseconds % 1000
  if rest < 500 ∨ (rest = 500 ∧ below % 2 = 0) then below else below + 1

/-- A row of `associations`. -/
structure AssociationRow where
  id : ℤ
  acronym : String
  name : String
  host : String
  railsCreatedAt : Option Timestamptz
  railsUpdatedAt : Option Timestamptz
  deriving DecidableEq

/-- A row of `events`. -/
structure EventRow where
  id : ℤ
  city : Option String
  discipline : String
  name : String
  railsID : Option ℤ
  railsCreatedAt : Option Timestamptz
  railsUpdatedAt : Option Timestamptz
  startsAt : Timestamptz
  state : Option String
  associationID : ℤ
  deriving DecidableEq

/-- The constraints of the two tables. -/
inductive Constraint where
  | associationsPkey
  | associationsAcronymIdx
  | associationsHostIdx
  | associationsNameIdx
  | eventsPkey
  | eventsAssociationID
  deriving DecidableEq, Repr

/-- The name a constraint has in the schema. -/
def Constraint.name : Constraint → String
  | associationsPkey => "associations_pkey"
  | associationsAcronymIdx => "associations_acronym_idx"
  | associationsHostIdx => "associations_host_idx"
  | associationsNameIdx => "associations_name_idx"
  | eventsPkey => "events_pkey"
  | eventsAssociationID => "events_association_id"

/-- The error the Postgres driver reports for a violated constraint. -/
def Constraint.error : Constraint → GoError
  | eventsAssociationID =>
      .other ("pq: insert or update on table \"events\" violates foreign key constraint \"" ++
        eventsAssociationID.name ++ "\"")
  | unique =>
      .other ("pq: duplicate key value violates unique constraint \"" ++ unique.name ++ "\"")

/-! ## Stores -/

/-- The two tables and their sequences, which hold the next value to draw. -/
structure Store where
  associations : List AssociationRow
  events : List EventRow
  associationsIDSeq : ℤ
  eventsIDSeq : ℤ
  associationsPkey : (associations.map AssociationRow.id).Nodup
  associationsAcronymIdx : (associations.map AssociationRow.acronym).Nodup
  associationsHostIdx : (associations.map AssociationRow.host).Nodup
  associationsNameIdx : (associations.map AssociationRow.name).Nodup
  eventsPkey : (events.map EventRow.id).Nodup
  eventsAssociationID : ∀ event ∈ events, event.associationID ∈ associations.map AssociationRow.id
  associationsIDSeq_pos : 1 ≤ associationsIDSeq
  eventsIDSeq_pos : 1 ≤ eventsIDSeq

namespace Store

@[ext] theorem ext {first second : Store} (associations : first.associations = second.associations)
    (events : first.events = second.events)
    (associationsIDSeq : first.associationsIDSeq = second.associationsIDSeq)
    (eventsIDSeq : first.eventsIDSeq = second.eventsIDSeq) : first = second := by
  cases first
  cases second
  simp_all

/-- The store of a new database. -/
def empty : Store where
  associations := []
  events := []
  associationsIDSeq := 1
  eventsIDSeq := 1
  associationsPkey := .nil
  associationsAcronymIdx := .nil
  associationsHostIdx := .nil
  associationsNameIdx := .nil
  eventsPkey := .nil
  eventsAssociationID := by simp
  associationsIDSeq_pos := le_rfl
  eventsIDSeq_pos := le_rfl

/-- An event of `seed.sql`, which leaves the other columns to their defaults. -/
def seededEvent (id : ℤ) (name : String) (startsAt : Timestamptz) : EventRow where
  id := id
  city := none
  discipline := "Road"
  name := name
  railsID := none
  railsCreatedAt := none
  railsUpdatedAt := none
  startsAt := startsAt
  state := none
  associationID := 1

/-- The store of a new database after `seed.sql`. The seed names the id of its
association, so the sequence of that table has not moved. -/
def seeded : Store where
  associations := [⟨1, "CBRA", "Cascadia Bicycle Racing Association",
    "0.0.0.0|localhost|cbra.local", none, none⟩]
  events := [
    seededEvent 1 "Hellyer Challenge" 1483171200000000,
    seededEvent 2 "Aplenrose Velodrome Challenge" 1483948800000000,
    seededEvent 3 "Copperopolis Road Race" 1500969600000000,
    seededEvent 4 "Tour of the Gila" 1514793600000000]
  associationsIDSeq := 1
  eventsIDSeq := 5
  associationsPkey := by decide
  associationsAcronymIdx := by decide
  associationsHostIdx := by decide
  associationsNameIdx := by decide
  eventsPkey := by decide
  eventsAssociationID := by decide
  associationsIDSeq_pos := by decide
  eventsIDSeq_pos := by decide

/-! ## Sequences

A drawn value stays drawn, whatever becomes of the statement it was drawn for. -/

/-- Draw the next id of an association. -/
def drawAssociationID (st : Store) : Store :=
  { st with
    associationsIDSeq := st.associationsIDSeq + 1
    associationsIDSeq_pos := by have := st.associationsIDSeq_pos; omega }

/-- Draw the next id of an event. -/
def drawEventID (st : Store) : Store :=
  { st with
    eventsIDSeq := st.eventsIDSeq + 1
    eventsIDSeq_pos := by have := st.eventsIDSeq_pos; omega }

/-- The store with the sequences of a later one: what a transaction that is
rolled back leaves. -/
def rolledBack (st later : Store) : Store :=
  { st with
    associationsIDSeq := later.associationsIDSeq
    eventsIDSeq := later.eventsIDSeq
    associationsIDSeq_pos := later.associationsIDSeq_pos
    eventsIDSeq_pos := later.eventsIDSeq_pos }

section Draws

variable (st later : Store)

@[simp] theorem drawAssociationID_associations :
    st.drawAssociationID.associations = st.associations := rfl
@[simp] theorem drawAssociationID_events : st.drawAssociationID.events = st.events := rfl
@[simp] theorem drawAssociationID_associationsIDSeq :
    st.drawAssociationID.associationsIDSeq = st.associationsIDSeq + 1 := rfl
@[simp] theorem drawAssociationID_eventsIDSeq :
    st.drawAssociationID.eventsIDSeq = st.eventsIDSeq := rfl
@[simp] theorem drawEventID_associations : st.drawEventID.associations = st.associations := rfl
@[simp] theorem drawEventID_events : st.drawEventID.events = st.events := rfl
@[simp] theorem drawEventID_associationsIDSeq :
    st.drawEventID.associationsIDSeq = st.associationsIDSeq := rfl
@[simp] theorem drawEventID_eventsIDSeq : st.drawEventID.eventsIDSeq = st.eventsIDSeq + 1 := rfl
@[simp] theorem rolledBack_associations :
    (st.rolledBack later).associations = st.associations := rfl
@[simp] theorem rolledBack_events : (st.rolledBack later).events = st.events := rfl
@[simp] theorem rolledBack_associationsIDSeq :
    (st.rolledBack later).associationsIDSeq = later.associationsIDSeq := rfl
@[simp] theorem rolledBack_eventsIDSeq :
    (st.rolledBack later).eventsIDSeq = later.eventsIDSeq := rfl

end Draws

/-! ## Statements on `associations` -/

/-- The unique values of a row that other rows must not hold. -/
structure Fresh (row : AssociationRow) (rows : List AssociationRow) : Prop where
  id : row.id ∉ rows.map AssociationRow.id
  acronym : row.acronym ∉ rows.map AssociationRow.acronym
  host : row.host ∉ rows.map AssociationRow.host
  name : row.name ∉ rows.map AssociationRow.name

/-- The first constraint a new row violates, in the order of the indexes. -/
def violation (row : AssociationRow) (rows : List AssociationRow) : Option Constraint :=
  if row.id ∈ rows.map AssociationRow.id then some .associationsPkey
  else if row.acronym ∈ rows.map AssociationRow.acronym then some .associationsAcronymIdx
  else if row.host ∈ rows.map AssociationRow.host then some .associationsHostIdx
  else if row.name ∈ rows.map AssociationRow.name then some .associationsNameIdx
  else none

theorem violation_eq_none {row : AssociationRow} {rows : List AssociationRow} :
    violation row rows = none ↔ Fresh row rows := by
  simp only [violation]
  constructor
  · intro clear
    split at clear <;> try cases clear
    split at clear <;> try cases clear
    split at clear <;> try cases clear
    split at clear <;> try cases clear
    exact ⟨by assumption, by assumption, by assumption, by assumption⟩
  · rintro ⟨id, acronym, host, name⟩
    simp only [id, acronym, host, name, ↓reduceIte]

instance (row : AssociationRow) (rows : List AssociationRow) : Decidable (Fresh row rows) :=
  decidable_of_iff (violation row rows = none) violation_eq_none

/-- A row with new values joins the table. -/
def addAssociation (st : Store) (row : AssociationRow) (fresh : Fresh row st.associations) :
    Store :=
  { st with
    associations := st.associations ++ [row]
    associationsPkey := nodup_map_concat st.associationsPkey fresh.id
    associationsAcronymIdx := nodup_map_concat st.associationsAcronymIdx fresh.acronym
    associationsHostIdx := nodup_map_concat st.associationsHostIdx fresh.host
    associationsNameIdx := nodup_map_concat st.associationsNameIdx fresh.name
    eventsAssociationID := fun event member => by
      have owned := st.eventsAssociationID event member
      simp only [List.map_append, List.mem_append]
      exact .inl owned }

/-- `INSERT INTO associations`. -/
def insertAssociation (st : Store) (row : AssociationRow) : Except Constraint Store :=
  match clear : violation row st.associations with
  | some constraint => .error constraint
  | none => .ok (st.addAssociation row (violation_eq_none.mp clear))

/-- **An insert succeeds exactly for a row with new values**, and appends it. -/
theorem insertAssociation_eq_ok {st next : Store} {row : AssociationRow} :
    st.insertAssociation row = .ok next ↔
      ∃ fresh : Fresh row st.associations, next = st.addAssociation row fresh := by
  unfold insertAssociation
  split
  · rename_i constraint refused
    constructor
    · intro impossible
      cases impossible
    · rintro ⟨fresh, _⟩
      rw [violation_eq_none.mpr fresh] at refused
      cases refused
  · rename_i clear
    constructor
    · intro accepted
      cases accepted
      exact ⟨violation_eq_none.mp clear, rfl⟩
    · rintro ⟨_, rfl⟩
      rfl

theorem insertAssociation_of_fresh {st : Store} {row : AssociationRow}
    (fresh : Fresh row st.associations) :
    st.insertAssociation row = .ok (st.addAssociation row fresh) :=
  insertAssociation_eq_ok.mpr ⟨fresh, rfl⟩

theorem insertAssociation_of_not_fresh {st : Store} {row : AssociationRow}
    (taken : ¬ Fresh row st.associations) :
    ∃ constraint, st.insertAssociation row = .error constraint := by
  cases inserted : st.insertAssociation row with
  | error constraint => exact ⟨constraint, rfl⟩
  | ok next =>
      obtain ⟨fresh, _⟩ := insertAssociation_eq_ok.mp inserted
      exact absurd fresh taken

section AddAssociation

variable {st : Store} {row : AssociationRow} (fresh : Fresh row st.associations)

@[simp] theorem addAssociation_associations :
    (st.addAssociation row fresh).associations = st.associations ++ [row] := rfl
@[simp] theorem addAssociation_events : (st.addAssociation row fresh).events = st.events := rfl
@[simp] theorem addAssociation_associationsIDSeq :
    (st.addAssociation row fresh).associationsIDSeq = st.associationsIDSeq := rfl
@[simp] theorem addAssociation_eventsIDSeq :
    (st.addAssociation row fresh).eventsIDSeq = st.eventsIDSeq := rfl

end AddAssociation

/-- A row takes the place of the one with its id. -/
def replaceAssociation (st : Store) (row : AssociationRow)
    (fresh : Fresh row (st.associations.filter fun old => old.id ≠ row.id)) : Store :=
  { st with
    associations := replaceBy AssociationRow.id row st.associations
    associationsPkey := by
      rw [map_key_replaceBy]
      exact st.associationsPkey
    associationsAcronymIdx :=
      nodup_map_replaceBy st.associationsPkey st.associationsAcronymIdx fresh.acronym
    associationsHostIdx :=
      nodup_map_replaceBy st.associationsPkey st.associationsHostIdx fresh.host
    associationsNameIdx :=
      nodup_map_replaceBy st.associationsPkey st.associationsNameIdx fresh.name
    eventsAssociationID := by
      rw [map_key_replaceBy]
      exact st.eventsAssociationID }

/-- `UPDATE associations SET … WHERE id = …`. Only the other rows can refuse it. -/
def updateAssociation (st : Store) (row : AssociationRow) : Except Constraint Store :=
  match clear : violation row (st.associations.filter fun old => old.id ≠ row.id) with
  | some constraint => .error constraint
  | none => .ok (st.replaceAssociation row (violation_eq_none.mp clear))

/-! ## Statements on `events` -/

/-- A row with a new id that belongs to a stored association joins the table. -/
def addEvent (st : Store) (row : EventRow) (fresh : row.id ∉ st.events.map EventRow.id)
    (owned : row.associationID ∈ st.associations.map AssociationRow.id) : Store :=
  { st with
    events := st.events ++ [row]
    eventsPkey := nodup_map_concat st.eventsPkey fresh
    eventsAssociationID := fun event member => by
      rcases List.mem_append.mp member with old | new
      · exact st.eventsAssociationID event old
      · rw [List.mem_singleton.mp new]
        exact owned }

/-- `INSERT INTO events`. -/
def insertEvent (st : Store) (row : EventRow) : Except Constraint Store :=
  if taken : row.id ∈ st.events.map EventRow.id then .error .eventsPkey
  else if owned : row.associationID ∈ st.associations.map AssociationRow.id then
    .ok (st.addEvent row taken owned)
  else .error .eventsAssociationID

/-- **An insert succeeds exactly for a row with a new id and a stored owner**,
and appends it. -/
theorem insertEvent_eq_ok {st next : Store} {row : EventRow} :
    st.insertEvent row = .ok next ↔
      ∃ (fresh : row.id ∉ st.events.map EventRow.id)
        (owned : row.associationID ∈ st.associations.map AssociationRow.id),
        next = st.addEvent row fresh owned := by
  unfold insertEvent
  split
  · rename_i taken
    constructor
    · intro impossible
      cases impossible
    · rintro ⟨fresh, _, _⟩
      exact absurd taken fresh
  · rename_i fresh
    split
    · rename_i owned
      constructor
      · intro accepted
        cases accepted
        exact ⟨fresh, owned, rfl⟩
      · rintro ⟨_, _, rfl⟩
        rfl
    · rename_i orphan
      constructor
      · intro impossible
        cases impossible
      · rintro ⟨_, owned, _⟩
        exact absurd owned orphan

section AddEvent

variable {st : Store} {row : EventRow} (fresh : row.id ∉ st.events.map EventRow.id)
  (owned : row.associationID ∈ st.associations.map AssociationRow.id)

@[simp] theorem addEvent_associations :
    (st.addEvent row fresh owned).associations = st.associations := rfl
@[simp] theorem addEvent_events :
    (st.addEvent row fresh owned).events = st.events ++ [row] := rfl
@[simp] theorem addEvent_associationsIDSeq :
    (st.addEvent row fresh owned).associationsIDSeq = st.associationsIDSeq := rfl
@[simp] theorem addEvent_eventsIDSeq :
    (st.addEvent row fresh owned).eventsIDSeq = st.eventsIDSeq := rfl

end AddEvent

/-- The ids are positive, and the sequences have still to produce greater ones. -/
structure WellNumbered (st : Store) : Prop where
  associations : ∀ row ∈ st.associations, 0 < row.id ∧ row.id < st.associationsIDSeq
  events : ∀ row ∈ st.events, row.id < st.eventsIDSeq

theorem WellNumbered.empty : WellNumbered empty where
  associations := by simp [Store.empty]
  events := by simp [Store.empty]

/-- An event of an association with a Rails id is stored. -/
def EventStored (st : Store) (associationID railsID : ℤ) : Prop :=
  ∃ row ∈ st.events, row.associationID = associationID ∧ row.railsID = some railsID

end Store

end DawnPatrol.Postgres

import DawnPatrol.Foundation.Schemas

/-!
# The migrations

The four migrations of the Dawn Patrol database, as the scripts of their two
sections. `shmig` runs a section with `psql` and `ON_ERROR_STOP`.

A migration is undoable on a database when its `UP` section succeeds and keeps
what is stored, and its `DOWN` section succeeds and restores the database.
Creating the associations and adding their nullable columns can always be
undone. A column that must be set is added only to an empty table, and dropping
the index of the hosts is no statement of the grammar, as it gives the columns
in place of a name (`undoable_iff`).
-/

set_option autoImplicit false

namespace DawnPatrol.Postgres

open Foundation.Schemas

/-! ## The schema before the migrations -/

/-- The columns of `events`, without the owner of an event. -/
def eventsColumns : List Column := [
  { name := "id", type := .integer, notNull := true,
    defaultValue := some (.nextval "events_id_seq") },
  { name := "city", type := .text },
  { name := "discipline", type := .text, notNull := true,
    defaultValue := some (.literal (.text "Road")) },
  { name := "name", type := .text, notNull := true,
    defaultValue := some (.literal (.text "New Event")) },
  { name := "rails_id", type := .integer },
  { name := "rails_created_at", type := .timestamptz },
  { name := "rails_updated_at", type := .timestamptz },
  { name := "starts_at", type := .timestamptz, notNull := true },
  { name := "state", type := .text }]

/-- The columns of the version table of `goose`. -/
def gooseColumns : List Column := [
  { name := "id", type := .integer, notNull := true,
    defaultValue := some (.nextval "goose_db_version_id_seq") },
  { name := "version_id", type := .bigint, notNull := true },
  { name := "is_applied", type := .boolean, notNull := true },
  { name := "tstamp", type := .timestamp, defaultValue := some (.expression "now()") }]

/-- The columns of the version table of `shmig`. -/
def shmigColumns : List Column := [
  { name := "version", type := .integer, notNull := true },
  { name := "migrated_at", type := .timestamp, notNull := true,
    defaultValue := some (.expression "timezone('utc'::text, now())") }]

/-- The catalog before the first migration. -/
def originalCatalog : Catalog where
  tables := [⟨"events", eventsColumns⟩, ⟨"goose_db_version", gooseColumns⟩,
    ⟨"shmig_version", shmigColumns⟩]
  indexes := [⟨"events_discipline_idx", "events", "discipline", false⟩,
    ⟨"events_name_idx", "events", "name", false⟩,
    ⟨"events_rails_id_idx", "events", "rails_id", false⟩,
    ⟨"events_starts_at_idx", "events", "starts_at", false⟩]
  constraints := [⟨"events_pkey", "events", "id", .primaryKey⟩,
    ⟨"goose_db_version_pkey", "goose_db_version", "id", .primaryKey⟩,
    ⟨"shmig_version_pkey", "shmig_version", "version", .primaryKey⟩]
  sequences := [⟨"events_id_seq", some ("events", "id")⟩,
    ⟨"goose_db_version_id_seq", some ("goose_db_version", "id")⟩]

/-! ## The scripts -/

/-- The migrations, by the names of their files. -/
inductive Migration where
  | createAssociations
  | addEventsAssociationFk
  | addAssociationHost
  | addAssociationRailsAtFields
  deriving DecidableEq

namespace Migration

/-- The statements of the `UP` section. -/
def upStatements : Migration → List Statement
  | createAssociations => [
      .createTable "associations" [
        { name := "id", type := .integer, notNull := true },
        { name := "acronym", type := .text, notNull := true },
        { name := "name", type := .text, notNull := true }],
      .createIndex true "associations" "acronym",
      .createIndex true "associations" "name",
      .createSequence "associations_id_seq",
      .setOwner "associations_id_seq" "associations" "id",
      .setDefault "associations" "id" (.nextval "associations_id_seq"),
      .addPrimaryKey "associations" "associations_pkey" "id"]
  | addEventsAssociationFk => [
      .addColumn "events" "association_id" .integer true,
      .addForeignKey "events" "events_association_id" "association_id" "associations" "id"]
  | addAssociationHost => [
      .addColumn "associations" "host" .text true,
      .createIndex true "associations" "host"]
  | addAssociationRailsAtFields => [
      .addColumn "associations" "rails_created_at" .timestamptz false,
      .addColumn "associations" "rails_updated_at" .timestamptz false]

/-- The statements of the `DOWN` section. -/
def downStatements : Migration → List Statement
  | createAssociations => [.dropTable "associations"]
  | addEventsAssociationFk => [
      .dropConstraint "events" "events_association_id",
      .dropColumn "events" "association_id"]
  | addAssociationHost => [
      .unparsed "drop INDEX ON associations(host)",
      .dropColumn "associations" "host"]
  | addAssociationRailsAtFields => [
      .dropColumn "associations" "rails_created_at",
      .dropColumn "associations" "rails_updated_at"]

/-- The sections of the last two migrations are blocks. -/
def isBlock : Migration → Bool
  | createAssociations | addEventsAssociationFk => false
  | addAssociationHost | addAssociationRailsAtFields => true

/-- A section of a migration. -/
def script (m : Migration) (statements : List Statement) : List Command :=
  if m.isBlock then .begin :: (statements.map .statement ++ [.commit])
  else statements.map .statement

def up (m : Migration) : List Command := m.script m.upStatements

def down (m : Migration) : List Command := m.script m.downStatements

/-- The migrations that come before. -/
def earlier : Migration → List Migration
  | createAssociations => []
  | addEventsAssociationFk => [createAssociations]
  | addAssociationHost => [createAssociations, addEventsAssociationFk]
  | addAssociationRailsAtFields =>
      [createAssociations, addEventsAssociationFk, addAssociationHost]

/-- The migrations, in the order of their versions. -/
def all : List Migration :=
  [createAssociations, addEventsAssociationFk, addAssociationHost, addAssociationRailsAtFields]

end Migration

/-- The catalog after some migrations. -/
def catalogAfter (migrations : List Migration) : Option Catalog :=
  alterAll (migrations.flatMap Migration.upStatements) originalCatalog

/-- The catalog at the version before a migration. -/
def catalogBefore (m : Migration) : Catalog := (catalogAfter m.earlier).getD originalCatalog

/-- The catalog of `schema.sql`, which the migrations lead to. -/
def schemaCatalog : Catalog where
  tables := [
    ⟨"events", eventsColumns ++ [
      { name := "association_id", type := .integer, notNull := true }]⟩,
    ⟨"goose_db_version", gooseColumns⟩,
    ⟨"shmig_version", shmigColumns⟩,
    ⟨"associations", [
      { name := "id", type := .integer, notNull := true,
        defaultValue := some (.nextval "associations_id_seq") },
      { name := "acronym", type := .text, notNull := true },
      { name := "name", type := .text, notNull := true },
      { name := "host", type := .text, notNull := true },
      { name := "rails_created_at", type := .timestamptz },
      { name := "rails_updated_at", type := .timestamptz }]⟩]
  indexes := originalCatalog.indexes ++ [
    ⟨"associations_acronym_idx", "associations", "acronym", true⟩,
    ⟨"associations_name_idx", "associations", "name", true⟩,
    ⟨"associations_host_idx", "associations", "host", true⟩]
  constraints := originalCatalog.constraints ++ [
    ⟨"associations_pkey", "associations", "id", .primaryKey⟩,
    ⟨"events_association_id", "events", "association_id", .foreignKey "associations" "id"⟩]
  sequences := originalCatalog.sequences ++ [
    ⟨"associations_id_seq", some ("associations", "id")⟩]

/-- The migrations, in their order, lead to the catalog of `schema.sql`. -/
theorem catalogAfter_all :
    catalogAfter (Migration.addAssociationRailsAtFields.earlier ++
      [.addAssociationRailsAtFields]) = some schemaCatalog := by
  decide

/-! ## Undoing a migration -/

/-- A database that is valid at the version before a migration. -/
structure ValidBefore (m : Migration) (db : Database) : Prop where
  catalog : db.catalog = catalogBefore m
  conforms : db.Conforms

/-- `UP` succeeds and keeps what is stored, and then `DOWN` succeeds and restores
the database. -/
def Undoable (m : Migration) (db : Database) : Prop :=
  ∃ after, runScript m.up db = (true, after) ∧ Grows db after ∧
    runScript m.down after = (true, db)

/-- A section succeeds when all of its statements do. -/
theorem runScript_script (m : Migration) {statements : List Statement} {db after : Database} :
    runScript (m.script statements) db = (true, after) ↔
      execStatements statements db = some after := by
  simp only [Migration.script]
  split
  · rw [runScript_block]
    cases execStatements statements db <;> simp
  · exact runScript_statements

theorem upStatements_additive (m : Migration) :
    ∀ statement ∈ m.upStatements, statement.Additive := by
  cases m <;> decide

/-- What `UP` keeps need not be asked for, as its statements only add. -/
theorem undoable_iff_execStatements {m : Migration} {db : Database} :
    Undoable m db ↔ ∃ after, execStatements m.upStatements db = some after ∧
      execStatements m.downStatements after = some db := by
  simp only [Undoable, Migration.up, Migration.down, runScript_script]
  constructor
  · rintro ⟨after, ran, -, undone⟩
    exact ⟨after, ran, undone⟩
  · rintro ⟨after, ran, undone⟩
    exact ⟨after, ran, execStatements_grows (upStatements_additive m) ran, undone⟩

section Migrations

variable {db : Database}

/-- The rows of a database in which a table has none. -/
theorem rows_eq_of_none {rows : String → List Row} {table : String} (none : rows table = []) :
    rows = fun t => if t = table then [] else rows t := by
  funext t
  by_cases same : t = table
  · rw [if_pos same, same, none]
  · rw [if_neg same]

/-- The first migration can be run on any rows, and adds an empty table. -/
theorem up_createAssociations (catalog : db.catalog = originalCatalog) :
    execStatements Migration.createAssociations.upStatements db =
      some ⟨catalogBefore .addEventsAssociationFk,
        fun t => if t = "associations" then [] else db.rows t,
        fun s => if s = "associations_id_seq" then 1 else db.next s⟩ := by
  obtain ⟨_, rows, next⟩ := db
  obtain rfl := catalog
  rfl

/-- The table and the sequence that are created were not there, and are dropped. -/
theorem undoable_createAssociations (valid : ValidBefore .createAssociations db) :
    Undoable .createAssociations db := by
  have up := up_createAssociations valid.catalog
  obtain ⟨catalog, rows, next⟩ := db
  obtain ⟨catalogIs, conforms⟩ := valid
  obtain rfl : catalog = originalCatalog := catalogIs
  have newTable : ¬ originalCatalog.hasTable "associations" := by decide
  have newSequence : "associations_id_seq" ∉ originalCatalog.sequences.map Sequence.name := by
    decide
  have noRows : rows "associations" = [] := conforms.tables "associations" newTable
  have noValue : next "associations_id_seq" = 1 :=
    conforms.sequences "associations_id_seq" newSequence
  have down : execStatements Migration.createAssociations.downStatements
      ⟨catalogBefore .addEventsAssociationFk,
        fun t => if t = "associations" then [] else rows t,
        fun s => if s = "associations_id_seq" then 1 else next s⟩ =
      some ⟨originalCatalog,
        fun t => if t = "associations" then [] else if t = "associations" then [] else rows t,
        fun s => if s ∈ ["associations_id_seq"] then 1
          else if s = "associations_id_seq" then 1 else next s⟩ := rfl
  refine undoable_iff_execStatements.mpr ⟨_, up, down.trans (congrArg some ?_)⟩
  refine Database.ext rfl (funext fun t => ?_) (funext fun s => ?_)
  · by_cases same : t = "associations"
    · simp [same, noRows]
    · simp [same]
  · by_cases same : s = "associations_id_seq"
    · simp [same, noValue]
    · simp [same]

/-- The owner of an event must be set, so only an empty table takes the column. -/
theorem undoable_addEventsAssociationFk (valid : ValidBefore .addEventsAssociationFk db) :
    Undoable .addEventsAssociationFk db ↔ db.rows "events" = [] := by
  constructor
  · rintro ⟨after, ran, -, -⟩
    obtain ⟨next, added, -⟩ :=
      Option.bind_eq_some_iff.mp ((runScript_script .addEventsAssociationFk).mp ran)
    exact (Statement.exec_eq_some.mp added).2.1 rfl
  · intro noEvents
    obtain ⟨catalog, rows, next⟩ := db
    obtain ⟨catalogIs, -⟩ := valid
    obtain rfl : catalog = catalogBefore .addEventsAssociationFk := catalogIs
    -- with no events the statements can be run
    set noEventRows : String → List Row := fun t => if t = "events" then [] else rows t with isNone
    have rowsAre : rows = noEventRows := rows_eq_of_none noEvents
    rw [rowsAre]
    have up : execStatements Migration.addEventsAssociationFk.upStatements
        ⟨catalogBefore .addEventsAssociationFk, noEventRows, next⟩ =
        some ⟨catalogBefore .addAssociationHost,
          fun t => if t = "events" then (noEventRows t).map (· ++ [none]) else noEventRows t,
          next⟩ := rfl
    have down : execStatements Migration.addEventsAssociationFk.downStatements
        ⟨catalogBefore .addAssociationHost,
          fun t => if t = "events" then (noEventRows t).map (· ++ [none]) else noEventRows t,
          next⟩ =
        some ⟨catalogBefore .addEventsAssociationFk,
          fun t => if t = "events" then
            (if t = "events" then (noEventRows t).map (· ++ [none]) else noEventRows t).map
              (·.eraseIdx 9)
            else if t = "events" then (noEventRows t).map (· ++ [none]) else noEventRows t,
          next⟩ := rfl
    refine undoable_iff_execStatements.mpr ⟨_, up, down.trans (congrArg some ?_)⟩
    refine Database.ext rfl (funext fun t => ?_) rfl
    by_cases same : t = "events"
    · simp [same, isNone]
    · simp [same]

/-- Dropping the index of the hosts is refused by the grammar. -/
theorem not_undoable_addAssociationHost : ¬ Undoable .addAssociationHost db := by
  intro undoable
  obtain ⟨after, -, undone⟩ := undoable_iff_execStatements.mp undoable
  cases undone

/-- Columns that may be null are added to any rows, and taken away again. -/
theorem undoable_addAssociationRailsAtFields
    (valid : ValidBefore .addAssociationRailsAtFields db) :
    Undoable .addAssociationRailsAtFields db := by
  obtain ⟨catalog, rows, next⟩ := db
  obtain ⟨catalogIs, conforms⟩ := valid
  obtain rfl : catalog = catalogBefore .addAssociationRailsAtFields := catalogIs
  have wide : ∀ row ∈ rows "associations", row.length = 4 := by
    intro row member
    have listed : (⟨"associations",
        (catalogBefore .addAssociationRailsAtFields).columns "associations"⟩ : Table) ∈
          (catalogBefore .addAssociationRailsAtFields).tables := by decide
    exact (conforms.cells _ listed row member).length_eq.symm
  -- the rows, with one more cell and with two
  set withOne : String → List Row := fun t =>
    if t = "associations" then (rows t).map (· ++ [none]) else rows t with withOneIs
  set withTwo : String → List Row := fun t =>
    if t = "associations" then (withOne t).map (· ++ [none]) else withOne t with withTwoIs
  set withoutOne : String → List Row := fun t =>
    if t = "associations" then (withTwo t).map (·.eraseIdx 4) else withTwo t with withoutOneIs
  have up : execStatements Migration.addAssociationRailsAtFields.upStatements
      ⟨catalogBefore .addAssociationRailsAtFields, rows, next⟩ =
      some ⟨schemaCatalog, withTwo, next⟩ := rfl
  have down : execStatements Migration.addAssociationRailsAtFields.downStatements
      ⟨schemaCatalog, withTwo, next⟩ =
      some ⟨catalogBefore .addAssociationRailsAtFields,
        fun t => if t = "associations" then (withoutOne t).map (·.eraseIdx 4) else withoutOne t,
        next⟩ := rfl
  refine undoable_iff_execStatements.mpr ⟨_, up, down.trans (congrArg some ?_)⟩
  refine Database.ext rfl (funext fun t => ?_) rfl
  by_cases same : t = "associations"
  · subst same
    simp only [withoutOneIs, withTwoIs, withOneIs, if_true, List.map_map]
    refine (List.map_congr_left fun row member => ?_).trans (List.map_id _)
    simp only [Function.comp_apply, id_eq, List.append_assoc, List.singleton_append]
    rw [eraseIdx_of_width (wide row member), eraseIdx_of_width (wide row member), List.append_nil]
  · simp only [withoutOneIs, withTwoIs, withOneIs, if_neg same]

end Migrations

/-- **A migration is undoable** exactly when it creates the associations, when it adds
their nullable columns, or when it adds the owner of events and there are none. -/
theorem undoable_iff {m : Migration} {db : Database} (valid : ValidBefore m db) :
    Undoable m db ↔ m = .createAssociations ∨ m = .addAssociationRailsAtFields ∨
      (m = .addEventsAssociationFk ∧ db.rows "events" = []) := by
  cases m with
  | createAssociations => simp [undoable_createAssociations valid]
  | addEventsAssociationFk => simp [undoable_addEventsAssociationFk valid]
  | addAssociationHost => simp [not_undoable_addAssociationHost]
  | addAssociationRailsAtFields => simp [undoable_addAssociationRailsAtFields valid]

/-- One association, with its host, before the columns of its times. -/
def oneAssociation : Database where
  catalog := catalogBefore .addAssociationRailsAtFields
  rows t := if t = "associations" then [[some (.number 1), some (.text "CBRA"),
    some (.text "Cascadia Bicycle Racing Association"),
    some (.text "0.0.0.0|localhost|cbra.local")]] else []
  next _ := 1

theorem oneAssociation_valid : ValidBefore .addAssociationRailsAtFields oneAssociation where
  catalog := rfl
  conforms := {
    tables := fun _ absent => if_neg fun same => absurd (by decide) (same ▸ absent)
    sequences := fun _ _ => rfl
    cells := by decide
    indexes := by decide
    constraints := by decide }

/-- The columns of the times of one association can be undone. -/
theorem undoable_oneAssociation : Undoable .addAssociationRailsAtFields oneAssociation :=
  (undoable_iff oneAssociation_valid).mpr (.inr (.inl rfl))

/-- One event, before events have owners. -/
def oneEvent : Database where
  catalog := catalogBefore .addEventsAssociationFk
  rows t := if t = "events" then [[some (.number 1), none, some (.text "Road"),
    some (.text "New Event"), none, none, none, some (.instant 0), none]] else []
  next s := if s = "events_id_seq" then 2 else 1

theorem oneEvent_valid : ValidBefore .addEventsAssociationFk oneEvent where
  catalog := rfl
  conforms := {
    tables := fun _ absent => if_neg fun same => absurd (by decide) (same ▸ absent)
    sequences := fun _ absent => if_neg fun same => absurd (by decide) (same ▸ absent)
    cells := by decide
    indexes := by decide
    constraints := by decide }

/-- An event stands in the way of the owners, and even without rows the hosts cannot
be undone. -/
theorem valid_not_undoable :
    (ValidBefore .addEventsAssociationFk oneEvent ∧
        ¬ Undoable .addEventsAssociationFk oneEvent) ∧
      (ValidBefore .addAssociationHost (catalogBefore .addAssociationHost).fresh ∧
        ¬ Undoable .addAssociationHost (catalogBefore .addAssociationHost).fresh) := by
  refine ⟨⟨oneEvent_valid, fun undoable => ?_⟩, ⟨rfl, fresh_conforms _⟩,
    not_undoable_addAssociationHost⟩
  cases (undoable_addEventsAssociationFk oneEvent_valid).mp undoable

end DawnPatrol.Postgres

import DawnPatrol.Postgres.Migrations
import DawnPatrol.Shmig.Sessions

/-!
# The migrations of the repository, as files

The files of `db/migrations`, line by line. `migration_section` cuts both
sections out of each of them, and a client that reads the sections as the
scripts of `DawnPatrol.Postgres.Migrations` (`Psql.ReadsMigrations`) finds them
tidy.
-/

set_option autoImplicit false

namespace DawnPatrol.Shmig

open Foundation Foundation.Schemas Foundation.Changes Postgres

namespace Repository

/-- The name of the file of a migration. -/
def fileName : Migration → String
  | .createAssociations => "1507560488-create-associations.sql"
  | .addEventsAssociationFk => "1507776432-add-events-association-fk.sql"
  | .addAssociationHost => "1509578401-add-association-host.sql"
  | .addAssociationRailsAtFields => "1510868478-AddAssociationRailsAtFields.sql"

/-- The lines of a section, between the markers. -/
def text : Migration → Direction → List String
  | .createAssociations, .up => [
      "CREATE TABLE associations(",
      "  id integer NOT NULL,",
      "  acronym text not null,",
      "  name text not null",
      ");",
      "",
      "CREATE UNIQUE INDEX ON associations(acronym);",
      "CREATE UNIQUE INDEX ON associations(name);",
      "",
      "CREATE SEQUENCE associations_id_seq",
      "    START WITH 1",
      "    INCREMENT BY 1",
      "    NO MINVALUE",
      "    NO MAXVALUE",
      "    CACHE 1;",
      "",
      "ALTER SEQUENCE associations_id_seq OWNED BY associations.id;",
      "ALTER TABLE ONLY associations ALTER COLUMN id SET DEFAULT " ++
        "nextval('associations_id_seq'::regclass);",
      "ALTER TABLE ONLY associations ADD CONSTRAINT associations_pkey PRIMARY KEY (id);",
      ""]
  | .createAssociations, .down => ["DROP TABLE associations;"]
  | .addEventsAssociationFk, .up => [
      "ALTER TABLE events add column association_id integer not null;",
      "ALTER TABLE events ADD CONSTRAINT events_association_id FOREIGN KEY (association_id) " ++
        "REFERENCES associations (id);",
      ""]
  | .addEventsAssociationFk, .down => [
      "ALTER TABLE events DROP CONSTRAINT events_association_id;",
      "ALTER TABLE events drop column association_id;"]
  | .addAssociationHost, .up => [
      "",
      "BEGIN;",
      "",
      "alter table associations add column host text not null;",
      "",
      "CREATE UNIQUE INDEX ON associations(host);",
      "",
      "COMMIT;",
      ""]
  | .addAssociationHost, .down => [
      "",
      "BEGIN;",
      "",
      "drop INDEX ON associations(host);",
      "alter table associations drop column host;",
      "",
      "COMMIT;"]
  | .addAssociationRailsAtFields, .up => [
      "",
      "BEGIN;",
      "",
      "alter table associations add column rails_created_at timestamp with time zone;",
      "alter table associations add column rails_updated_at timestamp with time zone;",
      "",
      "COMMIT;",
      ""]
  | .addAssociationRailsAtFields, .down => [
      "",
      "BEGIN;",
      "",
      "alter table associations drop column rails_created_at;",
      "alter table associations drop column rails_updated_at;",
      "",
      "COMMIT;"]

/-- The lines before the sections. -/
def header : Migration → List String
  | .createAssociations | .addEventsAssociationFk => []
  | .addAssociationHost => [
      "-- Migration: add-association-host",
      "-- Created at: 2017-11-01 16:20:01"]
  | .addAssociationRailsAtFields => [
      "-- Migration: AddAssociationRailsAtFields",
      "-- Created at: 2017-11-16 13:41:18"]

/-- The file of a migration. -/
def file (m : Migration) : MigrationFile :=
  .ofSections (fileName m) (header m) (text m .up) (text m .down)

/-- The version of a migration. -/
def number : Migration → ℕ
  | .createAssociations => 1507560488
  | .addEventsAssociationFk => 1507776432
  | .addAssociationHost => 1509578401
  | .addAssociationRailsAtFields => 1510868478

/-- The script of a section. -/
def script (m : Migration) : Direction → List Command
  | .up => m.up
  | .down => m.down

/-- A directory that holds the migrations of the repository, in any order. -/
def Holds (directory : MigrationsDirectory) : Prop :=
  directory.files.Perm (Migration.all.map file)

end Repository

open Repository

/-- A client that reads the sections of the repository as their scripts. -/
def Psql.ReadsMigrations (psql : Psql) : Prop :=
  ∀ m me, psql.commands (text m me) = script m me

section Repository

/-- The markers of a file stand at its sections only, and its sections are code. -/
theorem markedOnce_file (m : Migration) : MarkedOnce (header m) (text m .up) (text m .down) := by
  constructor
  · cases m <;> decide
  · cases m <;> decide

theorem isCode_text (m : Migration) (me : Direction) : ∀ line ∈ text m me, isCode line = true := by
  cases m <;> cases me <;> decide +kernel

theorem hasText_text (m : Migration) (me : Direction) : hasText (text m me) = true := by
  cases m <;> cases me <;> decide

/-- `migration_section` cuts both sections out of a file. -/
theorem migrationSection_file (m : Migration) (me : Direction) :
    migrationSection (file m) me.since me.till = some (text m me) := by
  have code := List.filter_eq_self.mpr (isCode_text m me)
  have isText := hasText_text m me
  cases me with
  | up =>
      refine (migrationSection_up (markedOnce_file m)).trans ?_
      rw [code, withText, if_pos isText]
  | down =>
      refine (migrationSection_down (markedOnce_file m)).trans ?_
      rw [code, withText, if_pos isText]

/-- The scripts close their blocks, and do not name the version table. -/
theorem tidy_script (m : Migration) (me : Direction) : Tidy (script m me) := by
  constructor
  · cases m <;> cases me <;> rfl
  · cases m <;> cases me <;> decide

theorem tidy_text {psql : Psql} (reads : psql.ReadsMigrations) (m : Migration)
    (me : Direction) : Tidy (psql.commands (text m me)) :=
  (reads m me).symm ▸ tidy_script m me

/-- The versions of the repository have ten digits. -/
theorem tenDigits_of_holds {directory : MigrationsDirectory} (holds : Holds directory) :
    directory.TenDigits := by
  intro listed member migration
  obtain ⟨m, -, rfl⟩ := List.mem_map.mp (holds.mem_iff.mp member)
  cases m <;> decide

end Repository

/-- The directory of the repository. -/
def Repository.directory : MigrationsDirectory where
  files := Migration.all.map file
  names := by decide

theorem Repository.holds_directory : Holds directory := List.Perm.refl _

/-- The section that has the lines. The sections differ in their lengths, or in
their fourth lines. -/
def Repository.sectionOf (lines : List String) : Option (Migration × Direction) :=
  (Migration.all.flatMap fun m => [(m, Direction.up), (m, Direction.down)]).find? fun known =>
    (text known.1 known.2).length = lines.length ∧ (text known.1 known.2)[3]? = lines[3]?

theorem Repository.sectionOf_text (m : Migration) (me : Direction) :
    sectionOf (text m me) = some (m, me) := by
  cases m <;> cases me <;> decide +kernel

/-- A client that knows the sections of the repository. -/
def Repository.client : Psql where
  commands lines := (sectionOf lines).elim [] fun known => script known.1 known.2
  migratedAt _ := 0
  misread _ _ db := (false, db)

theorem Repository.client_reads : client.ReadsMigrations := by
  intro m me
  simp only [client, sectionOf_text, Option.elim]

end DawnPatrol.Shmig

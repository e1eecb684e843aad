import DawnPatrol.Foundation.SchemaFrames
import DawnPatrol.Shmig.Actions

/-!
# Sections and versions

What one migration does to the database, in terms of the script of its section
and of the rows of the version table. When the script closes its blocks and
does not name the version table, the version is recorded, or dropped, exactly
when the migration succeeds (`process_eq`).
-/

set_option autoImplicit false

namespace DawnPatrol.Shmig

open Foundation Foundation.Schemas Foundation.Changes

/-! ## Sessions -/

/-- Whether a block is open after a script. -/
def openAfter (isOpen : Bool) : List Command → Bool
  | [] => isOpen
  | .begin :: commands => openAfter true commands
  | .commit :: commands => openAfter false commands
  | .statement _ :: commands => openAfter isOpen commands

/-- A script that closes its blocks and does not name the version table. -/
structure Tidy (commands : List Command) : Prop where
  closes : openAfter false commands = false
  elsewhere : ∀ command ∈ commands, command.LeavesAlone "shmig_version"

/-- What follows a script that closes its blocks starts without a block. -/
theorem psqlSession_append (psql : Psql) (commands : List Command) (rest : List Input)
    (s : Session) (closes : openAfter s.saved.isSome commands = false) :
    psqlSession psql (commands.map .command ++ rest) s =
      andThen (session commands s) fun db => psqlSession psql rest ⟨db, none⟩ := by
  induction commands generalizing s with
  | nil =>
      obtain ⟨db, _ | start⟩ := s
      · rfl
      · cases closes
  | cons command commands ih =>
      cases command with
      | begin => exact ih _ closes
      | commit => exact ih _ closes
      | statement statement =>
          simp only [List.map_cons, List.cons_append, psqlSession, session]
          cases statement.exec s.db with
          | some after => exact ih _ closes
          | none => rfl

/-- The change of the version table that belongs to a direction. -/
def Direction.change (psql : Psql) (version : List Char) : Direction → Database → Option Database
  | up => bumpVersion psql version
  | down => dropVersion version

/-- **One migration** is its script, and then the change of the version table. -/
theorem process_eq {psql : Psql} {me : Direction} {file : MigrationFile} {text : List String}
    (present : migrationSection file me.since me.till = some text)
    (tidy : Tidy (psql.commands text)) (db : Database) :
    process psql me file db = andThen (runScript (psql.commands text) db)
      (attempt (me.change psql file.version)) := by
  simp only [process, present]
  rw [psqlSession_append psql _ _ ⟨db, none⟩ tidy.closes]
  refine congrArg (andThen (runScript (psql.commands text) db)) (funext fun after => ?_)
  cases me with
  | up =>
      simp only [Direction.versionChange, psqlSession, Direction.change, attempt]
      cases bumpVersion psql file.version after <;> rfl
  | down =>
      simp only [Direction.versionChange, psqlSession, Direction.change, attempt]
      cases dropVersion file.version after <;> rfl

/-! ## The rows of the version table -/

/-- The version table has the columns that `shmig` gives it. -/
def HasVersionTable (db : Database) : Prop :=
  db.catalog.columns "shmig_version" = Postgres.shmigColumns

section Versions

variable {db after : Database} {psql : Psql} {version : List Char}

theorem SameTable.versions (same : SameTable "shmig_version" db after) :
    versions after = versions db := by
  simp only [Shmig.versions, Database.values, Catalog.place, same.columns, same.rows]

/-- The version is the first cell of a row. -/
theorem versions_eq (table : HasVersionTable db) :
    versions db = (db.rows "shmig_version").filterMap fun row =>
      row.head?.join.bind numberOf := by
  have first : db.catalog.place "shmig_version" "version" = 0 := by
    rw [Catalog.place, table]
    decide
  rw [versions, Database.values, first, List.filterMap_filterMap]
  refine congrArg (fun read => List.filterMap read (db.rows "shmig_version")) (funext fun row => ?_)
  rw [← List.head?_eq_getElem?]

theorem withVersionRows_rows (db : Database) (rows : List Row) :
    (withVersionRows db rows).rows "shmig_version" = rows := by
  simp [withVersionRows]

/-- A version that is recorded is a new one. -/
theorem bumpVersion_eq_some :
    bumpVersion psql version db = some after ↔
      ∃ n, sqlNumber version = some n ∧ HasVersionTable db ∧ n < 2147483648 ∧
        (n : ℤ) ∉ versions db ∧ after = withVersionRows db (db.rows "shmig_version" ++
          [[some (.number n), some (.instant (psql.migratedAt n))]]) := by
  simp only [bumpVersion, Option.bind_eq_some_iff, Option.ite_none_right_eq_some, Option.some.injEq,
    HasVersionTable, and_assoc]
  refine exists_congr fun n => and_congr_right fun _ => and_congr_right fun _ =>
    and_congr_right fun _ => and_congr_right fun _ => eq_comm

/-- A version is recorded behind the others. -/
theorem versions_bumpVersion (ran : bumpVersion psql version db = some after) :
    ∃ n, sqlNumber version = some n ∧ (n : ℤ) ∉ versions db ∧ HasVersionTable after ∧
      versions after = versions db ++ [(n : ℤ)] := by
  obtain ⟨n, number, table, -, new, rfl⟩ := bumpVersion_eq_some.mp ran
  have stillTable : HasVersionTable (withVersionRows db (db.rows "shmig_version" ++
      [[some (.number n), some (.instant (psql.migratedAt n))]])) := table
  refine ⟨n, number, new, stillTable, ?_⟩
  rw [versions_eq stillTable, versions_eq table, withVersionRows_rows, List.filterMap_append]
  rfl

/-- A version is dropped, and no other. -/
theorem versions_dropVersion (ran : dropVersion version db = some after) :
    ∃ n, sqlNumber version = some n ∧ HasVersionTable after ∧
      versions after = (versions db).filter (· ≠ (n : ℤ)) := by
  simp only [dropVersion, Option.bind_eq_some_iff, Option.ite_none_right_eq_some,
    Option.some.injEq] at ran
  obtain ⟨n, number, table, rfl⟩ := ran
  set kept := (db.rows "shmig_version").filter
    (fun row => row.head? ≠ some (some (.number n))) with keptIs
  have stillTable : HasVersionTable (withVersionRows db kept) := table
  refine ⟨n, number, stillTable, ?_⟩
  rw [versions_eq stillTable, versions_eq table, withVersionRows_rows, keptIs,
    List.filter_filterMap, List.filterMap_filter]
  refine congrArg (fun read => List.filterMap read (db.rows "shmig_version")) (funext fun row => ?_)
  rcases row with _ | ⟨_ | value, cells⟩
  · rfl
  · rfl
  · cases value with
    | number recorded =>
        by_cases same : recorded = (n : ℤ)
        · simp [numberOf, Option.filter, same]
        · simp [numberOf, Option.filter, same]
    | text | boolean | instant => simp [numberOf]

end Versions

end DawnPatrol.Shmig

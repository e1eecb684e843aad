import DawnPatrol.Shmig.Runs

/-!
# When up succeeds, and what redo does

`up` without options applies all that is pending, or stops where rows stand in
the way. It succeeds exactly when there are no events before they are given
owners, and no associations before these are given hosts, and then the schema is
that of `schema.sql` (`up_succeeds_iff`).

`redo` reverts migrations and never applies them again: it passes the last
version on as `to_char` writes it, with a blank in front, which is no number to
`up` (`redo_only_reverts`).
-/

set_option autoImplicit false

namespace DawnPatrol.Shmig

open Foundation Foundation.Schemas Foundation.Changes Postgres Repository

/-! ## When up succeeds -/

/-- No rows stand in the way of some pending migrations. Those that create the
associations leave none. -/
def Ready (pending : List Migration) (db : Database) : Prop :=
  (.addEventsAssociationFk ∈ pending → db.rows "events" = []) ∧
    (.addAssociationHost ∈ pending → .createAssociations ∈ pending ∨ db.rows "associations" = [])

section Ready

variable {psql : Psql} {directory : MigrationsDirectory} {done pending : List Migration}
  {m : Migration} {db after : Database}

/-- Applying a migration leaves in the other tables what its script leaves. -/
theorem process_rows (reads : psql.ReadsMigrations) {table : String}
    (other : table ≠ "shmig_version") :
    (process psql .up (file m) db).2.rows table = (runScript m.up db).2.rows table := by
  have bump : ∀ middle, (attempt (Direction.up.change psql (file m).version) middle).2.rows table =
      middle.rows table := by
    intro middle
    cases bumped : Direction.up.change psql (file m).version middle with
    | none => rw [attempt_of_none bumped]
    | some last =>
        obtain ⟨n, -, -, -, -, rfl⟩ := bumpVersion_eq_some.mp bumped
        rw [attempt_of_some bumped]
        exact Function.update_of_ne other _ _
  rw [process_file reads, script]
  rcases runScript m.up db with ⟨_ | _, middle⟩
  · rfl
  · exact bump middle

/-- A migration leaves alone the tables that it does not name. -/
theorem process_leavesAlone (reads : psql.ReadsMigrations) {table : String}
    (elsewhere : ∀ command ∈ m.up, command.LeavesAlone table)
    (other : table ≠ "shmig_version") :
    (process psql .up (file m) db).2.rows table = db.rows table :=
  (process_rows reads other).trans (runScript_leavesAlone elsewhere db).rows

/-- The associations are created without rows. -/
theorem process_createAssociations (reads : psql.ReadsMigrations) (here : AtVersion [] db) :
    (process psql .up (file .createAssociations) db).2.rows "associations" = [] := by
  have created := (runScript_script .createAssociations).mpr
    (up_createAssociations (Option.some.inj here.catalog).symm)
  rw [process_rows reads (by decide), Migration.up, created]
  rfl

/-- What is ready is so one migration after the other. -/
theorem ready_cons (reads : psql.ReadsMigrations) (here : AtVersion done db)
    (all : done ++ m :: pending = Migration.all) :
    Ready (m :: pending) db ↔
      Clear db m ∧ Ready pending (process psql .up (file m) db).2 := by
  have earlier := @eq_earlier done m ⟨pending, by simpa using all⟩
  subst earlier
  cases m with
  | createAssociations =>
      obtain rfl : pending = [.addEventsAssociationFk, .addAssociationHost,
        .addAssociationRailsAtFields] := by simpa [Migration.earlier, Migration.all] using all
      have events := @process_leavesAlone psql .createAssociations db reads "events" (by decide)
        (by decide)
      have created := process_createAssociations reads here
      simp [Ready, Clear, events, created]
  | addEventsAssociationFk =>
      obtain rfl : pending = [.addAssociationHost, .addAssociationRailsAtFields] := by
        simpa [Migration.earlier, Migration.all] using all
      have associations := @process_leavesAlone psql .addEventsAssociationFk db reads
        "associations" (by decide) (by decide)
      simp [Ready, Clear, associations]
  | addAssociationHost =>
      obtain rfl : pending = [.addAssociationRailsAtFields] := by
        simpa [Migration.earlier, Migration.all] using all
      simp [Ready, Clear]
  | addAssociationRailsAtFields =>
      obtain rfl : pending = [] := by simpa [Migration.earlier, Migration.all] using all
      simp [Ready, Clear]

/-- The loop of `up` goes through when it is ready. -/
theorem applyAll_up_iff (reads : psql.ReadsMigrations) (here : AtVersion done db)
    (all : done ++ pending = Migration.all) :
    (applyAll (process psql .up) (pending.map file) db).1 = true ↔ Ready pending db := by
  induction pending generalizing done db with
  | nil => simp [Ready]
  | cons m pending ih =>
      rw [ready_cons reads here all, List.map_cons, applyAll_cons]
      rcases process_up reads here ⟨pending, by simpa using all⟩ with
        ⟨clear, after, ran, there⟩ | ⟨stands, fails⟩
      · rw [ran, andThen_true, ih there (by simpa using all)]
        simp [clear]
      · rw [fails]
        simp [stands]

/-- Without options all that is pending is due. -/
theorem dueFiles_of_holds (holds : Holds directory) (here : AtVersion done db)
    (all : done ++ pending = Migration.all) :
    dueFiles directory (lastVersion db) {} = pending.map file := by
  have everything : ∀ file : MigrationFile,
      (!Direction.up.stops ({} : Options).till file.version) = true := by
    intro file
    simp only [Direction.stops]
    cases arithmetic file.version <;> rfl
  rw [dueFiles, show stepsOf ({} : Options).steps = none from rfl, pending_of_holds holds here all]
  exact List.takeWhile_eq_self_iff.mpr fun file _ => everything file

/-- **`up` succeeds** exactly when there are no events, or they have owners, and no
associations, or they have hosts or are yet to be created. Then the schema is
that of `schema.sql`, and all versions are recorded. -/
theorem up_succeeds_iff (reads : psql.ReadsMigrations) (holds : Holds directory)
    (here : AtVersion done db) :
    ((shmig psql directory (.up []) db).1 = true ↔
      (.addEventsAssociationFk ∈ done ∨ db.rows "events" = []) ∧
        (.addAssociationHost ∈ done ∨ .createAssociations ∉ done ∨
          db.rows "associations" = [])) ∧
    ((shmig psql directory (.up []) db).1 = true →
      (shmig psql directory (.up []) db).2.catalog = schemaCatalog ∧
        versions (shmig psql directory (.up []) db).2 =
          Migration.all.map fun m => (number m : ℤ)) := by
  obtain ⟨pending, all⟩ := here.order
  have ran := @shmig_up psql directory db here.hasVersionTable [] {} rfl rfl rfl
  rw [ran, dueFiles_of_holds holds here all]
  constructor
  · rw [applyAll_up_iff reads here all, Ready]
    -- a migration is pending when it is not done
    have known : ∀ some ∈ Migration.all.inits, ∀ m ∈ Migration.all,
        (m ∈ Migration.all.drop some.length ↔ m ∉ some) := by decide
    have isPending : ∀ m ∈ Migration.all, (m ∈ pending ↔ m ∉ done) := by
      intro m member
      have rule := known done ((List.mem_inits _ _).mpr here.order) m member
      rwa [← all, List.drop_left] at rule
    rw [isPending .addEventsAssociationFk (by decide), isPending .addAssociationHost (by decide),
      isPending .createAssociations (by decide)]
    tauto
  · intro succeeds
    obtain ⟨made, rest, split, there, whole⟩ :=
      @applyAll_up _ _ _ reads here pending (all ▸ List.prefix_rfl)
    rw [whole.mp succeeds, List.append_nil] at split
    rw [← split, all] at there
    exact ⟨Option.some.inj (there.catalog.symm.trans catalogAfter_all), there.recorded⟩

end Ready

/-- The database before the migrations, without rows. -/
theorem up_succeeds_iff_original :
    ((shmig client directory (.up []) originalCatalog.fresh).1 = true ↔
      (.addEventsAssociationFk ∈ ([] : List Migration) ∨
        originalCatalog.fresh.rows "events" = []) ∧
      (.addAssociationHost ∈ ([] : List Migration) ∨ .createAssociations ∉ ([] : List Migration) ∨
        originalCatalog.fresh.rows "associations" = [])) ∧
    ((shmig client directory (.up []) originalCatalog.fresh).1 = true →
      (shmig client directory (.up []) originalCatalog.fresh).2.catalog = schemaCatalog ∧
        versions (shmig client directory (.up []) originalCatalog.fresh).2 =
          Migration.all.map fun m => (number m : ℤ)) :=
  up_succeeds_iff client_reads holds_directory ⟨List.nil_prefix, rfl, rfl⟩

/-! ## What redo does -/

section Redo

variable {psql : Psql} {directory : MigrationsDirectory} {db : Database}

/-- **`redo` only reverts**, and fails after that, unless nothing is applied. -/
theorem redo_only_reverts (table : HasVersionTable db) (args : List String) :
    shmig psql directory (.redo args) db =
      if lastVersion db = 0 then (true, db)
      else (false, (shmig psql directory (.down args) db).2) := by
  simp only [shmig, postgresqlCheck_of_table table, andThen_true, Action.run, redo]
  cases last : (previousVersions db (some 1)).head? with
  | none => rw [lastVersion, last, if_pos (by rfl)]
  | some version =>
      rw [lastVersion, last]
      simp only [Option.getD_some]
      split
      · rfl
      · rcases migrate psql directory .down args db with ⟨_ | _, after⟩
        · rfl
        · exact migrate_toChar .up version

end Redo

/-- The last migration of `schema.sql` is reverted, and not applied again. -/
theorem redo_dumped :
    shmig client directory (.redo ["steps=1"]) dumped =
      if lastVersion dumped = 0 then (true, dumped)
      else (false, (shmig client directory (.down ["steps=1"]) dumped).2) :=
  redo_only_reverts dumped_atVersion.hasVersionTable ["steps=1"]

end DawnPatrol.Shmig

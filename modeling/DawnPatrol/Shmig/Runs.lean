import DawnPatrol.Shmig.Upgrades
import Mathlib.Data.List.Infix
import Mathlib.Logic.Relation

/-!
# Runs of shmig

Actions of `shmig` on the database of the repository, with any plain arguments
(`ArePlain`) and in any order, and between them any changes of rows by the programs
that use the database. While an action runs nobody else writes: the sections of the
first two migrations are no blocks, and a row that comes between their statements
could leave them half-applied.

At every moment the catalog and the version table agree: the database has
exactly the schema of the migrations whose versions are recorded, and these are
the first migrations in order (`AtVersion`). No section is left half-applied, as
only the first statement of a section can fail. The index of the hosts is never
dropped: its `DOWN` section fails, so whatever is applied before it stays
(`host_is_never_reverted`).
-/

set_option autoImplicit false

namespace DawnPatrol.Shmig

open Foundation Foundation.Schemas Foundation.Changes Postgres Repository

/-! ## Versions of the database -/

/-- The schema of the database is that of the migrations whose versions are recorded,
which are the first in order. -/
structure AtVersion (done : List Migration) (db : Database) : Prop where
  order : done <+: Migration.all
  catalog : catalogAfter done = some db.catalog
  recorded : versions db = done.map fun m => (number m : ℤ)

section Versions

variable {done : List Migration} {m : Migration} {db after : Database}

/-- What comes before a migration. -/
theorem eq_earlier (next : done ++ [m] <+: Migration.all) : done = m.earlier := by
  have known : ∀ some ∈ Migration.all.inits, ∀ m ∈ Migration.all,
      some ++ [m] ∈ Migration.all.inits → some = m.earlier := by decide
  refine known done ?_ m ?_ (List.mem_inits _ _ |>.mpr next)
  · exact (List.mem_inits _ _).mpr ((List.prefix_append done [m]).trans next)
  · exact next.subset (by simp)

/-- Every schema has the version table. -/
theorem AtVersion.hasVersionTable (here : AtVersion done db) : HasVersionTable db := by
  have known : ∀ some ∈ Migration.all.inits, (catalogAfter some).map
      (·.columns "shmig_version") = Option.some shmigColumns := by decide
  have columns := known done ((List.mem_inits _ _).mpr here.order)
  rw [here.catalog] at columns
  exact Option.some.inj columns

theorem AtVersion.catalog_eq (here : AtVersion m.earlier db) : db.catalog = catalogBefore m := by
  rw [catalogBefore, here.catalog, Option.getD_some]

/-! ## The sections of the repository -/

/-- No rows stand in the way of a migration: only an empty table takes a column that
must be set. -/
def Clear (db : Database) : Migration → Prop
  | .addEventsAssociationFk => db.rows "events" = []
  | .addAssociationHost => db.rows "associations" = []
  | .createAssociations | .addAssociationRailsAtFields => True

/-- A column that must be set is refused when there are rows. -/
theorem addColumn_refused {table column : String} {type : ColumnType}
    (rows : db.rows table ≠ []) : (Statement.addColumn table column type true).exec db = none := by
  rw [Statement.exec, Option.bind_eq_none_iff]
  exact fun _ _ => if_neg fun admits => rows (admits rfl)

/-- The statements of an `UP` section succeed when no rows stand in the way. -/
theorem upStatements_of_clear (catalog : db.catalog = catalogBefore m) (clear : Clear db m) :
    ∃ after, execStatements m.upStatements db = some after := by
  cases m with
  | createAssociations => exact ⟨_, up_createAssociations catalog⟩
  | addEventsAssociationFk | addAssociationHost =>
      obtain ⟨_, rows, next⟩ := db
      obtain rfl := catalog
      rw [show rows = _ from rows_eq_of_none clear]
      exact ⟨_, rfl⟩
  | addAssociationRailsAtFields =>
      obtain ⟨_, rows, next⟩ := db
      obtain rfl := catalog
      exact ⟨_, rfl⟩

/-- **An `UP` section** leads to the next schema when no rows stand in the way, and
changes nothing otherwise. -/
theorem runScript_up (catalog : db.catalog = catalogBefore m) :
    (Clear db m ∧ ∃ after, runScript m.up db = (true, after) ∧
      catalogAfter (m.earlier ++ [m]) = some after.catalog) ∨
    (¬ Clear db m ∧ runScript m.up db = (false, db)) := by
  by_cases clear : Clear db m
  · obtain ⟨after, ran⟩ := upStatements_of_clear catalog clear
    have leads : alterAll m.upStatements (catalogBefore m) = catalogAfter (m.earlier ++ [m]) := by
      cases m <;> decide
    refine .inl ⟨clear, after, (runScript_script m).mpr ran, ?_⟩
    rw [← leads, ← catalog]
    exact execStatements_catalog ran
  · refine .inr ⟨clear, ?_⟩
    cases m with
    | createAssociations | addAssociationRailsAtFields => exact absurd trivial clear
    | addEventsAssociationFk =>
        simp [Migration.up, Migration.script, Migration.isBlock, Migration.upStatements,
          runScript, session, addColumn_refused clear]
    | addAssociationHost =>
        have refused : execStatements Migration.addAssociationHost.upStatements db = none := by
          rw [Migration.upStatements, execStatements, addColumn_refused clear]
          rfl
        rw [Migration.up, Migration.script,
          if_pos (show Migration.addAssociationHost.isBlock = true from rfl), runScript_block,
          refused]

/-- A `DOWN` section leads back, except for that of the hosts, which fails. -/
theorem runScript_down (catalog : catalogAfter (m.earlier ++ [m]) = some db.catalog) :
    if m = .addAssociationHost then runScript m.down db = (false, db)
    else ∃ after, runScript m.down db = (true, after) ∧
      catalogAfter m.earlier = some after.catalog := by
  split
  · rename_i host
    subst host
    exact runScript_block _ db
  · rename_i other
    have undemanding : ∀ statement ∈ m.downStatements, ∀ db, statement.Admits db := by
      intro statement member db
      cases m with
      | createAssociations => simp_all [Migration.downStatements, Statement.Admits]
      | addEventsAssociationFk =>
          rcases List.mem_pair.mp member with rfl | rfl <;> trivial
      | addAssociationHost => exact absurd rfl other
      | addAssociationRailsAtFields =>
          rcases List.mem_pair.mp member with rfl | rfl <;> trivial
    have leads : alterAll m.downStatements db.catalog = catalogAfter m.earlier := by
      have known : m ≠ .addAssociationHost → (catalogAfter (m.earlier ++ [m])).bind
          (alterAll m.downStatements) = catalogAfter m.earlier := by
        cases m <;> decide
      have back := known other
      rwa [catalog] at back
    have defined : ∃ c, catalogAfter m.earlier = some c := by
      cases m <;> exact ⟨_, rfl⟩
    obtain ⟨c, before⟩ := defined
    obtain ⟨after, ran, same⟩ := execStatements_of_undemanding undemanding (leads.trans before)
    exact ⟨after, (runScript_script m).mpr ran, same ▸ before⟩

end Versions

/-! ## One migration -/

section Process

variable {psql : Psql} {done : List Migration} {m : Migration} {db : Database}

/-- The server reads a version as its number, which fits. -/
theorem sqlNumber_file (m : Migration) :
    sqlNumber (file m).version = some (number m) ∧ number m < 2147483648 := by
  cases m <;> decide

theorem process_file (reads : psql.ReadsMigrations) (me : Direction) (m : Migration)
    (db : Database) :
    process psql me (file m) db =
      andThen (runScript (script m me) db) (attempt (me.change psql (file m).version)) := by
  have clean := tidy_text reads m me
  rw [process_eq (migrationSection_file m me) clean, reads]

/-- **Applying a migration** leads to its version when no rows stand in the way, and
changes nothing otherwise. -/
theorem process_up (reads : psql.ReadsMigrations) (here : AtVersion done db)
    (next : done ++ [m] <+: Migration.all) :
    (Clear db m ∧ ∃ after, process psql .up (file m) db = (true, after) ∧
      AtVersion (done ++ [m]) after) ∨
    (¬ Clear db m ∧ process psql .up (file m) db = (false, db)) := by
  have earlier := eq_earlier next
  subst earlier
  have same := runScript_leavesAlone (tidy_script m .up).elsewhere db
  rw [process_file reads]
  rcases runScript_up here.catalog_eq with ⟨clear, after, ran, catalog⟩ | ⟨stands, fails⟩
  · refine .inl ⟨clear, ?_⟩
    rw [show runScript (script m .up) db = (true, after) from ran] at same ⊢
    have table : HasVersionTable after := same.columns.trans here.hasVersionTable
    have recorded : versions after = m.earlier.map fun m => (number m : ℤ) :=
      (SameTable.versions same).trans here.recorded
    have new : (number m : ℤ) ∉ versions after := by
      rw [recorded]
      cases m <;> decide
    have bumped := (@bumpVersion_eq_some _ _ psql _).mpr
      ⟨number m, (sqlNumber_file m).1, table, (sqlNumber_file m).2, new, rfl⟩
    obtain ⟨n, isNumber, -, -, grown⟩ := versions_bumpVersion bumped
    cases isNumber.symm.trans (sqlNumber_file m).1
    refine ⟨_, (andThen_true _ _).trans (attempt_of_some bumped), next, catalog, ?_⟩
    rw [grown, recorded, List.map_append]
    rfl
  · refine .inr ⟨stands, ?_⟩
    rw [show runScript (script m .up) db = (false, db) from fails]
    rfl

/-- **Reverting a migration** leads back to the version before it, or changes
nothing. That of the hosts cannot be reverted. -/
theorem process_down (reads : psql.ReadsMigrations) (here : AtVersion (done ++ [m]) db) :
    if m = .addAssociationHost then process psql .down (file m) db = (false, db)
    else ∃ after, process psql .down (file m) db = (true, after) ∧ AtVersion done after := by
  have earlier := eq_earlier here.order
  subst earlier
  have same := runScript_leavesAlone (tidy_script m .down).elsewhere db
  have down := runScript_down here.catalog
  rw [process_file reads]
  split
  · rename_i host
    rw [if_pos host] at down
    rw [show runScript (script m .down) db = (false, db) from down]
    rfl
  · rename_i other
    rw [if_neg other] at down
    obtain ⟨after, ran, catalog⟩ := down
    rw [show runScript (script m .down) db = (true, after) from ran] at same ⊢
    have table : HasVersionTable after := same.columns.trans here.hasVersionTable
    have recorded := (SameTable.versions same).trans here.recorded
    have dropped : dropVersion (file m).version after = some (withVersionRows after
        ((after.rows "shmig_version").filter fun row =>
          row.head? ≠ some (some (.number (number m))))) := by
      rw [dropVersion, (sqlNumber_file m).1]
      exact if_pos table
    obtain ⟨n, isNumber, -, left⟩ := versions_dropVersion dropped
    cases isNumber.symm.trans (sqlNumber_file m).1
    refine ⟨_, (andThen_true _ _).trans (attempt_of_some dropped),
      (List.prefix_append _ _).trans here.order, catalog, ?_⟩
    rw [left, recorded]
    cases m <;> decide

end Process

/-! ## The loops -/

section Loops

variable {psql : Psql} {directory : MigrationsDirectory} {done : List Migration} {db : Database}

theorem atMost_map {α β : Type} (limit : Option ℕ) (f : α → β) (all : List α) :
    atMost limit (all.map f) = (atMost limit all).map f := by
  cases limit with
  | none => rfl
  | some n => exact (List.map_take).symm

theorem atMost_starts {α : Type} (limit : Option ℕ) (all : List α) : atMost limit all <+: all := by
  cases limit with
  | none => exact List.prefix_rfl
  | some n => exact List.take_prefix n all

/-- The files of the repository, in the order of their names. -/
theorem sorted_of_holds (holds : Holds directory) :
    (directory.files.insertionSort fun first second => first.name ≤ second.name) =
      Migration.all.map file := by
  refine List.Perm.eq_of_pairwise (fun first second firstMember secondMember le ge => ?_)
    (List.pairwise_insertionSort _ _) ?_ ((List.perm_insertionSort _ _).trans holds)
  · have listed := holds.mem_iff.mp ((List.mem_insertionSort _).mp firstMember)
    obtain ⟨m, -, rfl⟩ := List.mem_map.mp listed
    obtain ⟨n, -, rfl⟩ := List.mem_map.mp secondMember
    have known : fileName m = fileName n → m = n := by
      cases m <;> cases n <;> decide
    exact congrArg file (known (le_antisymm le ge))
  · decide

/-- What is pending are the migrations that are not done. -/
theorem pending_of_holds (holds : Holds directory) (here : AtVersion done db)
    {rest : List Migration} (all : done ++ rest = Migration.all) (limit : Option ℕ) :
    pendingMigrations directory (lastVersion db) limit = (atMost limit rest).map file := by
  have known : ∀ some ∈ Migration.all.inits, (Migration.all.map file).filter (fun file =>
      file.IsMigration ∧ ((((some.map fun m => (number m : ℤ)).insertionSort
        (· ≥ ·)).take 1).head?.getD 0 : ℤ) < file.number) =
        (Migration.all.drop some.length).map file := by
    decide +kernel
  have pending := known done ((List.mem_inits _ _).mpr here.order)
  rw [← all, List.drop_left, ← here.recorded, all] at pending
  rw [pendingMigrations_eq, sorted_of_holds holds, ← atMost_map, ← pending]
  rfl

/-- A version is that of one file. -/
theorem previousMigrations_map (holds : Holds directory) (list : List Migration) :
    previousMigrations directory (list.map fun m => (number m : ℤ)) = list.map file := by
  induction list with
  | nil => rfl
  | cons m list ih =>
      have found : directory.files.filter (fun file => file.IsNamed (readVersion (number m))) =
          [file m] := by
        refine List.perm_singleton.mp ((holds.filter _).trans ?_)
        have known : (Migration.all.map file).filter
            (fun file => file.IsNamed (readVersion (number m))) = [file m] := by
          cases m <;> decide +kernel
        rw [known]
      simp only [List.map_cons, previousMigrations, found, ih]
      rfl

/-- What is reverted are migrations that are done, the last one first. -/
theorem previous_of_holds (holds : Holds directory) (here : AtVersion done db)
    (limit : Option ℕ) :
    ∃ part, part <+: done.reverse ∧
      previousMigrations directory (previousVersions db limit) = part.map file := by
  have known : ∀ some ∈ Migration.all.inits,
      (some.map fun m => (number m : ℤ)).insertionSort (· ≥ ·) =
        some.reverse.map fun m => (number m : ℤ) := by
    decide +kernel
  have sorted := known done ((List.mem_inits _ _).mpr here.order)
  rw [previousVersions, here.recorded, sorted]
  split
  · exact ⟨[], List.nil_prefix, rfl⟩
  · rw [atMost_map, previousMigrations_map holds]
    exact ⟨_, atMost_starts limit _, rfl⟩

/-- The loop of `up` leads from version to version. -/
theorem applyAll_up (reads : psql.ReadsMigrations) (here : AtVersion done db)
    {part : List Migration} (next : done ++ part <+: Migration.all) :
    ∃ made rest, part = made ++ rest ∧
      AtVersion (done ++ made) (applyAll (process psql .up) (part.map file) db).2 ∧
      ((applyAll (process psql .up) (part.map file) db).1 = true ↔ rest = []) := by
  rw [applyAll_map]
  refine applyAll_stages (fun made db => AtVersion (done ++ made) db) ?_
    ((List.append_nil done).symm ▸ here)
  rintro made m rest rfl db here
  have step : (done ++ made) ++ [m] <+: Migration.all :=
    List.IsPrefix.trans ⟨rest, by simp⟩ next
  rcases process_up reads here step with ⟨-, after, ran, there⟩ | ⟨-, fails⟩
  · rw [List.append_assoc] at there
    rw [ran]
    exact there
  · rw [fails]
    exact here

/-- The loop of `down` leads back from version to version, but never to before the
hosts. -/
theorem applyAll_down (reads : psql.ReadsMigrations) (here : AtVersion done db)
    {part : List Migration} (last : part <+: done.reverse) :
    ∃ made rest, part = made ++ rest ∧
      ((∃ left, done = left ++ made.reverse ∧
        AtVersion left (applyAll (process psql .down) (part.map file) db).2) ∧
          .addAssociationHost ∉ made) ∧
      ((applyAll (process psql .down) (part.map file) db).1 = true ↔ rest = []) := by
  rw [applyAll_map]
  refine applyAll_stages (fun made db =>
    (∃ left, done = left ++ made.reverse ∧ AtVersion left db) ∧ .addAssociationHost ∉ made) ?_
    ⟨⟨done, by simp, here⟩, List.not_mem_nil⟩
  rintro made m rest rfl db ⟨⟨left, split, here⟩, kept⟩
  -- the next to be reverted is the last one that is left
  have next : m :: rest <+: left.reverse := by
    rwa [split, List.reverse_append, List.reverse_reverse, List.prefix_append_right_inj] at last
  obtain ⟨before, isLeft⟩ := next
  have ends : left = (rest ++ before).reverse ++ [m] := by
    rw [← List.reverse_cons, ← List.cons_append, isLeft, List.reverse_reverse]
  subst ends
  have step := process_down reads here
  split at step
  · rename_i host
    rw [step]
    exact ⟨⟨_, split, here⟩, kept⟩
  · rename_i other
    obtain ⟨after, ran, there⟩ := step
    rw [ran]
    refine ⟨⟨_, ?_, there⟩, ?_⟩
    · rw [split]
      simp
    · simp [kept, Ne.symm other]

end Loops

/-! ## The actions -/

section Actions

variable {psql : Psql} {directory : MigrationsDirectory} {done : List Migration} {db : Database}

theorem exists_part {all : List Migration} {files : List MigrationFile}
    (starts : files <+: all.map file) : ∃ part, part <+: all ∧ files = part.map file := by
  refine ⟨all.take files.length, List.take_prefix _ _, ?_⟩
  rw [List.map_take]
  exact List.prefix_iff_eq_take.mp starts

/-- **`migrate` leads from version to version**, whatever its plain arguments are, and
keeps the hosts. -/
theorem migrate_atVersion (reads : psql.ReadsMigrations) (holds : Holds directory)
    (here : AtVersion done db) (me : Direction) {args : List String} (plain : ArePlain args) :
    ∃ now, AtVersion now (migrate psql directory me args db).2 ∧
      (.addAssociationHost ∈ done → .addAssociationHost ∈ now) := by
  rw [migrate]
  cases parsed : parseOptions {} args with
  | none => exact ⟨done, here, id⟩
  | some options =>
      obtain ⟨steps, till⟩ := parseOptions_isPlain plain isPlain_nil isPlain_nil parsed
      simp only [isNumeric_of_isPlain steps, isNumeric_of_isPlain till]
      split
      · rw [migrateAll_eq]
        cases me with
        | up =>
            obtain ⟨rest, all⟩ := here.order
            rw [Direction.source, pending_of_holds holds here all]
            obtain ⟨part, starts, files⟩ := exists_part
              ((List.takeWhile_prefix _).trans ((atMost_starts _ rest).map file))
            rw [files]
            have next : done ++ part <+: Migration.all :=
              all ▸ (List.prefix_append_right_inj done).mpr starts
            obtain ⟨made, -, -, there, -⟩ := applyAll_up reads here next
            exact ⟨_, there, List.mem_append_left made⟩
        | down =>
            obtain ⟨listed, isDone, previous⟩ :=
              previous_of_holds holds here (stepsOf options.steps)
            rw [Direction.source, previous]
            obtain ⟨part, starts, files⟩ := exists_part
              ((List.takeWhile_prefix _).trans (isDone.map file))
            rw [files]
            obtain ⟨made, -, -, ⟨⟨left, split, there⟩, kept⟩, -⟩ := applyAll_down reads here starts
            refine ⟨left, there, fun host => ?_⟩
            rw [split] at host
            exact (List.mem_append.mp host).resolve_right fun undone =>
              kept (List.mem_reverse.mp undone)
      · exact ⟨done, here, id⟩

/-- A version that `to_char` writes starts with a place for its sign. -/
theorem toChar_eq (version : ℤ) :
    ∃ sign digits, toChar version = sign :: digits ∧ (sign = ' ' ∨ sign = '-') ∧
      isNumber digits = true := by
  refine ⟨_, _, rfl, ?_, List.all_eq_true.mpr fun c member => ?_⟩
  · split
    · exact .inr rfl
    · exact .inl rfl
  · rcases List.mem_append.mp member with zero | digit
    · rw [List.eq_of_mem_replicate zero]
      rfl
    · exact Json.isDigit_of_mem_toDigits _ digit

/-- No action takes such a version. -/
theorem migrate_toChar (me : Direction) (version : ℤ) :
    migrate psql directory me [String.ofList (toChar version)] db = (false, db) := by
  obtain ⟨sign, digits, written, isSign, areDigits⟩ := toChar_eq version
  have plain : IsPlain (sign :: digits) := by
    refine isPlain_of_forall fun c member => ?_
    rcases List.mem_cons.mp member with rfl | digit
    · rcases isSign with rfl | rfl <;> decide
    · exact known_of_isDigit (List.all_eq_true.mp areDigits c digit)
  have noDigit : isNumeric (sign :: digits) = false := by
    rw [isNumeric_of_isPlain plain]
    rcases isSign with rfl | rfl <;> rfl
  have noSteps : ¬ "steps=".toList <+: sign :: digits := by
    rcases isSign with rfl | rfl <;> simp
  have noTill : ¬ "till=".toList <+: sign :: digits := by
    rcases isSign with rfl | rfl <;> simp
  simp only [migrate, parseOptions, written, String.toList_ofList, if_neg noSteps, if_neg noTill]
  split
  · rfl
  · rename_i read
    by_cases assigns : '=' ∈ sign :: digits
    · rw [if_pos assigns] at read
      cases read
    · rw [if_neg assigns, if_pos trivial] at read
      cases read
      simp only [noDigit, Bool.and_false, Bool.false_eq_true, if_false]

/-- The number of steps that `rollback` passes on. -/
theorem arePlain_steps {count : String} (plain : IsPlain count.toList) :
    ArePlain ["steps=" ++ count] := by
  intro arg member
  obtain rfl := List.mem_singleton.mp member
  rw [String.toList_append]
  refine ⟨⟨fun newline => ?_, rfl⟩, plain⟩
  rcases List.mem_append.mp newline with name | value
  · exact absurd name (by decide)
  · exact plain.oneLine value

/-- **An action leads from version to version** when its arguments are plain, and keeps
the hosts. -/
theorem run_atVersion (reads : psql.ReadsMigrations) (holds : Holds directory)
    (here : AtVersion done db) {action : Action} (plain : ArePlain action.args) :
    ∃ now, AtVersion now (action.run psql directory db).2 ∧
      (.addAssociationHost ∈ done → .addAssociationHost ∈ now) := by
  cases action with
  | up args => exact migrate_atVersion reads holds here .up plain
  | down args => exact migrate_atVersion reads holds here .down plain
  | rollback args =>
      rcases args with _ | ⟨count, _ | ⟨_, _⟩⟩
      · exact migrate_atVersion reads holds here .down
          (arePlain_steps (isPlain_of_isNumber rfl : IsPlain "1".toList))
      · rw [Action.run]
        refine migrate_atVersion reads holds here .down (arePlain_steps ?_)
        split
        · exact isPlain_of_isNumber rfl
        · exact (plain count (List.mem_singleton.mpr rfl)).1
      · exact ⟨done, here, id⟩
  | redo args =>
      simp only [Action.run, redo]
      cases (previousVersions db (some 1)).head? with
      | none => exact ⟨done, here, id⟩
      | some currentVersion =>
          simp only
          split
          · exact ⟨done, here, id⟩
          · obtain ⟨now, there, kept⟩ :=
              @migrate_atVersion _ _ _ _ reads holds here .down args plain
            rcases ran : migrate psql directory .down args db with ⟨_ | _, after⟩
            · rw [ran] at there
              exact ⟨now, there, kept⟩
            · rw [ran] at there
              rw [andThen_true, migrate_toChar]
              exact ⟨now, there, kept⟩
  | pending args => exact ⟨done, here, id⟩
  | status => exact ⟨done, here, id⟩

theorem shmig_atVersion (reads : psql.ReadsMigrations) (holds : Holds directory)
    (here : AtVersion done db) {action : Action} (plain : ArePlain action.args) :
    ∃ now, AtVersion now (shmig psql directory action db).2 ∧
      (.addAssociationHost ∈ done → .addAssociationHost ∈ now) := by
  rw [shmig, postgresqlCheck_of_table here.hasVersionTable, andThen_true]
  exact run_atVersion reads holds here plain

end Actions

/-! ## Runs -/

/-- One step: an action of `shmig`, while which nobody else writes, or a change of rows
other than those of the version table. -/
inductive Step : Database → Database → Prop
  | action {psql : Psql} {directory : MigrationsDirectory} (reads : psql.ReadsMigrations)
      (holds : Holds directory) (action : Action) (plain : ArePlain action.args) (db : Database) :
      Step db (shmig psql directory action db).2
  | rows {db after : Database} (catalog : after.catalog = db.catalog)
      (kept : after.rows "shmig_version" = db.rows "shmig_version") : Step db after

/-- What steps lead to. -/
abbrev Reaches : Database → Database → Prop := Relation.ReflTransGen Step

section Runs

variable {done : List Migration} {start db after : Database}

/-- A step leads from version to version, and keeps the hosts. -/
theorem Step.atVersion (step : Step db after) (here : AtVersion done db) :
    ∃ now, AtVersion now after ∧ (.addAssociationHost ∈ done → .addAssociationHost ∈ now) := by
  cases step with
  | action reads holds action plain => exact shmig_atVersion reads holds here plain
  | rows catalog kept =>
      have same : SameTable "shmig_version" db after := ⟨by rw [catalog], kept⟩
      exact ⟨done, ⟨here.order, catalog ▸ here.catalog,
        (SameTable.versions same).trans here.recorded⟩, id⟩

/-- **The hosts are never reverted.** Once their version is recorded, it is recorded
in every database that is reached, and associations have the column. -/
theorem host_is_never_reverted (here : AtVersion done start)
    (host : .addAssociationHost ∈ done) (run : Reaches start db) :
    (number .addAssociationHost : ℤ) ∈ versions db ∧
      db.catalog.hasColumn "associations" "host" := by
  have kept : ∃ now, AtVersion now db ∧ .addAssociationHost ∈ now := by
    induction run with
    | refl => exact ⟨done, here, host⟩
    | tail _ step ih =>
        obtain ⟨now, there, member⟩ := ih
        obtain ⟨last, isLast, kept⟩ := step.atVersion there
        exact ⟨last, isLast, kept member⟩
  obtain ⟨now, there, member⟩ := kept
  constructor
  · rw [there.recorded]
    exact List.mem_map_of_mem member
  · have known : ∀ some ∈ Migration.all.inits, .addAssociationHost ∈ some →
        (catalogAfter some).any (fun c => c.hasColumn "associations" "host") = true := by
      decide +kernel
    have column := known now ((List.mem_inits _ _).mpr there.order) member
    rwa [there.catalog, Option.any_some, decide_eq_true_eq] at column

/-- The database of `schema.sql`, with the versions that it records. -/
def dumped : Database where
  catalog := schemaCatalog
  rows t :=
    if t = "shmig_version" then [
      [some (.number 1507560488), some (.instant 1507776835467747)],
      [some (.number 1507776432), some (.instant 1509810217426016)],
      [some (.number 1509578401), some (.instant 1509810217438428)],
      [some (.number 1510868478), some (.instant 1510870328235853)]]
    else []
  next _ := 1

/-- `schema.sql` records the migrations that lead to it. -/
theorem dumped_atVersion : AtVersion Migration.all dumped where
  order := List.prefix_rfl
  catalog := catalogAfter_all
  recorded := by decide

/-- Reverting everything that `schema.sql` records keeps the hosts. -/
theorem host_after_down :
    (number .addAssociationHost : ℤ) ∈ versions (shmig client directory (.down []) dumped).2 ∧
      (shmig client directory (.down []) dumped).2.catalog.hasColumn "associations" "host" :=
  host_is_never_reverted dumped_atVersion (by decide)
    (.single (.action client_reads holds_directory (.down []) arePlain_nil dumped))

end Runs

end DawnPatrol.Shmig

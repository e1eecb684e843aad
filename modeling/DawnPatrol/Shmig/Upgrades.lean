import DawnPatrol.Shmig.Repository

/-!
# What up applies

`shmig up` goes through the migrations that are due: those after the last
version that is recorded, up to `TILL`, as many as the number of steps, in the
order of their versions (`Due`). It applies them one after the other up to the
first that fails, and records the versions of those that succeeded
(`up_applies_due`). A migration that is older than the last version is never
due. After an `up` without options that succeeded nothing is due any more, and
the next one changes nothing (`up_twice`).
-/

set_option autoImplicit false

namespace DawnPatrol.Shmig

open Foundation Foundation.Schemas Foundation.Changes

/-! ## The loop -/

/-- The loop makes its changes up to the version at which it stops. -/
theorem migrateAll_eq (psql : Psql) (me : Direction) (stopver : List Char)
    (files : List MigrationFile) (db : Database) :
    migrateAll psql me stopver files db =
      applyAll (process psql me)
        (files.takeWhile fun file => !me.stops stopver file.version) db := by
  induction files generalizing db with
  | nil => rfl
  | cons file files ih =>
      cases stops : me.stops stopver file.version with
      | true => simp [migrateAll, stops]
      | false =>
          simp only [migrateAll, stops, Bool.false_eq_true, if_false, Bool.not_false,
            List.takeWhile_cons_of_pos, applyAll_cons]
          exact congrArg _ (funext ih)

/-! ## The last version -/

section LastVersion

variable {db : Database}

theorem previousVersions_one :
    previousVersions db (some 1) = ((versions db).insertionSort (· ≥ ·)).take 1 := rfl

/-- The last version is the greatest. -/
theorem lastVersion_le {v : ℤ} (recorded : v ∈ versions db) : v ≤ lastVersion db := by
  have sorted := List.pairwise_insertionSort (· ≥ ·) (versions db)
  have member := (List.mem_insertionSort (· ≥ ·)).mpr recorded
  rw [lastVersion, previousVersions_one]
  cases all : (versions db).insertionSort (· ≥ ·) with
  | nil =>
      rw [all] at member
      cases member
  | cons greatest rest =>
      rw [all] at sorted member
      rcases List.mem_cons.mp member with rfl | later
      · exact le_rfl
      · exact (List.pairwise_cons.mp sorted).1 v later

/-- The last version is recorded, unless none is. -/
theorem lastVersion_mem (nonempty : versions db ≠ []) : lastVersion db ∈ versions db := by
  rw [lastVersion, previousVersions_one]
  cases all : (versions db).insertionSort (· ≥ ·) with
  | nil =>
      have length := List.length_insertionSort (· ≥ ·) (versions db)
      rw [all] at length
      exact absurd (List.length_eq_zero_iff.mp length.symm) nonempty
  | cons greatest rest =>
      refine (List.mem_insertionSort (· ≥ ·)).mp ?_
      rw [all]
      exact List.mem_cons_self

end LastVersion

/-! ## What is due -/

/-- A file is not beyond `TILL`. -/
def Options.Reaches (options : Options) (file : MigrationFile) : Prop :=
  ∀ stopver, arithmetic options.till = some stopver → (file.number : ℤ) ≤ stopver

/-- The migrations that `up` goes through: after the last version, up to `TILL`, in
the order of their versions. One that is left out comes after all of them, and
the steps are used up. -/
structure Due (directory : MigrationsDirectory) (last : ℤ) (options : Options)
    (due : List MigrationFile) : Prop where
  sorted : due.Pairwise fun first second => first.number ≤ second.number
  pending : ∀ file ∈ due, file ∈ directory.files ∧ file.IsMigration ∧ last < file.number ∧
    options.Reaches file
  first : ∀ file ∈ directory.files, file.IsMigration → last < file.number →
    options.Reaches file → file ∉ due →
      stepsOf options.steps = some due.length ∧ ∀ other ∈ due, other.number ≤ file.number

section Due

variable {directory : MigrationsDirectory} {file : MigrationFile}

/-- The shell keeps a number that has 63 bits. -/
theorem wrapped_of_lt {n : ℕ} (small : n < 2 ^ 63) : wrapped n = n :=
  Int.bmod_eq_of_le (by omega) (by omega)

/-- The shell and the server read a version of ten digits as its number. -/
theorem version_numbers (ten : directory.TenDigits) (listed : file ∈ directory.files)
    (migration : file.IsMigration) :
    arithmetic file.version = some (file.number : ℤ) ∧
      sqlNumber file.version = some file.number := by
  obtain ⟨length, noZero⟩ := ten file listed migration
  have nonempty := migration.1
  have digits : ∀ c ∈ Decimal.digits file.name.toList, c.isDigit = true :=
    fun _ => Decimal.isDigit_of_mem_digits
  have below := Json.ofDigitChars_lt digits
  rw [length] at below
  rw [version_eq migration]
  refine ⟨?_, if_pos ⟨nonempty, List.all_eq_true.mpr digits⟩⟩
  rw [arithmetic, if_neg nonempty, if_neg noZero]
  exact congrArg some (wrapped_of_lt (below.trans (by decide)))

theorem not_stops_iff (ten : directory.TenDigits) (listed : file ∈ directory.files)
    (migration : file.IsMigration) (options : Options) :
    (!Direction.up.stops options.till file.version) = true ↔ options.Reaches file := by
  simp only [Direction.stops, (version_numbers ten listed migration).1, Options.Reaches]
  cases arithmetic options.till with
  | none => simp
  | some stopver => simp

/-- In order, what comes up to a bound is what is within it. -/
theorem takeWhile_eq_filter {α : Type} {r : α → α → Prop} {within : α → Bool} {all : List α}
    (sorted : all.Pairwise r)
    (down : ∀ a ∈ all, ∀ b ∈ all, r a b → within b = true → within a = true) :
    all.takeWhile within = all.filter within := by
  induction all with
  | nil => rfl
  | cons a rest ih =>
      obtain ⟨before, sortedRest⟩ := List.pairwise_cons.mp sorted
      have rule := ih sortedRest fun b bMember c cMember =>
        down b (List.mem_cons_of_mem _ bMember) c (List.mem_cons_of_mem _ cMember)
      by_cases here : within a = true
      · rw [List.takeWhile_cons_of_pos here, List.filter_cons_of_pos here, rule]
      · rw [List.takeWhile_cons_of_neg here, List.filter_cons_of_neg here]
        refine (List.filter_eq_nil_iff.mpr fun b member isWithin => here ?_).symm
        exact down a List.mem_cons_self b (List.mem_cons_of_mem _ member) (before b member) isWithin

/-- The files that `up` goes through. -/
def dueFiles (directory : MigrationsDirectory) (last : ℤ) (options : Options) :
    List MigrationFile :=
  (pendingMigrations directory last (stepsOf options.steps)).takeWhile fun file =>
    !Direction.up.stops options.till file.version

/-- **What the loop goes through is what is due.** -/
theorem due_dueFiles (ten : directory.TenDigits) (last : ℤ) (options : Options) :
    Due directory last options (dueFiles directory last options) := by
  set all := pendingMigrations directory last none with allIs
  set steps := stepsOf options.steps with stepsIs
  have taken : pendingMigrations directory last steps = atMost steps all := by
    simp only [allIs, pendingMigrations_eq]
    rfl
  have sorted := pendingMigrations_sorted ten last steps
  have listed : ∀ file ∈ pendingMigrations directory last steps, file ∈ all := by
    rw [taken]
    exact fun file member => (atMost_sublist steps all).mem member
  have reaches : ∀ file ∈ pendingMigrations directory last steps,
      ((!Direction.up.stops options.till file.version) = true ↔ options.Reaches file) := by
    intro file member
    obtain ⟨inDirectory, migration, -⟩ := mem_pendingMigrations.mp (listed file member)
    exact not_stops_iff ten inDirectory migration options
  rw [dueFiles, takeWhile_eq_filter sorted fun a aMember b bMember le within =>
    (reaches a aMember).mpr fun stopver till =>
      (Int.ofNat_le.mpr le).trans ((reaches b bMember).mp within stopver till)]
  constructor
  · exact sorted.filter _
  · intro file member
    obtain ⟨inPending, within⟩ := List.mem_filter.mp member
    obtain ⟨inDirectory, migration, after⟩ := mem_pendingMigrations.mp (listed file inPending)
    exact ⟨inDirectory, migration, after, (reaches file inPending).mp within⟩
  · intro file inDirectory migration after within missing
    have inAll : file ∈ all := mem_pendingMigrations.mpr ⟨inDirectory, migration, after⟩
    have notTaken : file ∉ atMost steps all := by
      rw [← taken]
      intro member
      exact missing (List.mem_filter.mpr ⟨member, (reaches file member).mpr within⟩)
    rw [taken] at sorted reaches ⊢
    cases given : steps with
    | none =>
        rw [given] at notTaken
        exact absurd inAll notTaken
    | some n =>
        rw [given] at notTaken reaches
        simp only [atMost, Option.elim] at notTaken reaches ⊢
        have sortedAll := pendingMigrations_sorted ten last none
        rw [← allIs, ← List.take_append_drop n all] at sortedAll
        have dropped : file ∈ all.drop n := by
          rw [← List.take_append_drop n all] at inAll
          exact (List.mem_append.mp inAll).resolve_left notTaken
        have earlier : ∀ other ∈ all.take n, other.number ≤ file.number :=
          fun other member => (List.pairwise_append.mp sortedAll).2.2 other member file dropped
        have whole : (all.take n).filter
            (fun file => !Direction.up.stops options.till file.version) = all.take n := by
          refine List.filter_eq_self.mpr fun other member => (reaches other member).mpr ?_
          exact fun stopver till =>
            (Int.ofNat_le.mpr (earlier other member)).trans (within stopver till)
        rw [whole]
        have long : n < all.length := by
          by_contra short
          rw [List.drop_eq_nil_of_le (not_lt.mp short)] at dropped
          cases dropped
        exact ⟨by rw [List.length_take, min_eq_left long.le, ← stepsIs, given], earlier⟩

end Due

/-! ## What up does -/

/-- The `UP` sections of the directory are tidy. -/
def TidyUps (psql : Psql) (directory : MigrationsDirectory) : Prop :=
  ∀ file ∈ directory.files, file.IsMigration →
    ∀ text, migrationSection file upMark downMark = some text → Tidy (psql.commands text)

section Up

variable {psql : Psql} {directory : MigrationsDirectory} {db : Database}

/-- The `UP` sections of the repository are tidy. -/
theorem tidyUps_of_holds (reads : psql.ReadsMigrations) (holds : Repository.Holds directory) :
    TidyUps psql directory := by
  intro listed member migration text present
  obtain ⟨m, -, rfl⟩ := List.mem_map.mp (holds.mem_iff.mp member)
  cases (migrationSection_file m .up).symm.trans present
  exact tidy_text reads m .up

/-- A database with the version table passes the check. -/
theorem postgresqlCheck_of_table (table : HasVersionTable db) :
    postgresqlCheck db = (true, db) := by
  refine if_pos ?_
  by_contra missing
  have none : db.catalog.tables.find? (fun t => t.name = "shmig_version") = none := by
    refine List.find?_eq_none.mpr fun t member named => missing ?_
    exact List.mem_map.mpr ⟨t, member, by simpa using named⟩
  rw [HasVersionTable, Catalog.columns, none] at table
  cases table

/-- A migration records its version exactly when it succeeds. -/
theorem process_up_versions (ten : directory.TenDigits) (tidy : TidyUps psql directory)
    {file : MigrationFile} (listed : file ∈ directory.files) (migration : file.IsMigration)
    (table : HasVersionTable db) :
    HasVersionTable (process psql .up file db).2 ∧
      versions (process psql .up file db).2 =
        if (process psql .up file db).1 = true then versions db ++ [(file.number : ℤ)]
        else versions db := by
  cases present : migrationSection file upMark downMark with
  | none =>
      have nothing : process psql .up file db = (false, db) := by
        simp only [process, Direction.since, Direction.till, present]
      rw [nothing]
      exact ⟨table, rfl⟩
  | some text =>
      have clean := tidy file listed migration text present
      rw [@process_eq _ .up _ _ present clean]
      have same := runScript_leavesAlone clean.elsewhere db
      rcases ran : runScript (psql.commands text) db with ⟨_ | _, after⟩
      · rw [ran] at same
        exact ⟨same.columns.trans table, SameTable.versions same⟩
      · rw [ran] at same
        rw [andThen_true]
        cases bumped : bumpVersion psql file.version after with
        | none =>
            rw [@attempt_of_none _ (Direction.up.change psql file.version) _ bumped]
            exact ⟨same.columns.trans table, SameTable.versions same⟩
        | some last =>
            obtain ⟨n, number, -, stillTable, recorded⟩ := versions_bumpVersion bumped
            rw [@attempt_of_some _ (Direction.up.change psql file.version) _ _ bumped]
            cases number.symm.trans (version_numbers ten listed migration).2
            exact ⟨stillTable, recorded.trans (congrArg (· ++ _) (SameTable.versions same))⟩

/-- `up` makes the changes of the files that are due. -/
theorem shmig_up (table : HasVersionTable db) {args : List String} {options : Options}
    (parsed : parseOptions {} args = some options) (steps : isNumber options.steps = true)
    (till : isNumber options.till = true) :
    shmig psql directory (.up args) db =
      applyAll (process psql .up) (dueFiles directory (lastVersion db) options) db := by
  rw [shmig, postgresqlCheck_of_table table, andThen_true, Action.run, migrate, parsed]
  simp only [isNumeric_of_isNumber steps, isNumeric_of_isNumber till, steps, till, Bool.and_self,
    if_true, migrateAll_eq, Direction.source, dueFiles]

/-- The versions of the migrations that succeed are recorded. -/
theorem versions_applyAll_up (ten : directory.TenDigits) (tidy : TidyUps psql directory)
    (table : HasVersionTable db) (options : Options) :
    ∃ made rest, dueFiles directory (lastVersion db) options = made ++ rest ∧
      versions (applyAll (process psql .up) (dueFiles directory (lastVersion db) options) db).2 =
        versions db ++ made.map (fun file => (file.number : ℤ)) ∧
      ((applyAll (process psql .up) (dueFiles directory (lastVersion db) options) db).1 = true ↔
        rest = []) := by
  have due := due_dueFiles ten (lastVersion db) options
  exact applyAll_log versions (fun file => (file.number : ℤ)) HasVersionTable
    (fun file member state holds => process_up_versions ten tidy (due.pending file member).1
      (due.pending file member).2.1 holds) table

/-- **`up` applies what is due**, in the order of the versions and up to the first
migration that fails, and records the versions of those that succeeded. It
succeeds exactly when all of them do. -/
theorem up_applies_due (ten : directory.TenDigits) (tidy : TidyUps psql directory)
    (table : HasVersionTable db) {args : List String} {options : Options}
    (parsed : parseOptions {} args = some options) (steps : isNumber options.steps = true)
    (till : isNumber options.till = true) :
    ∃ due, Due directory (lastVersion db) options due ∧
      shmig psql directory (.up args) db = applyAll (process psql .up) due db ∧
      ∃ made rest, due = made ++ rest ∧
        versions (shmig psql directory (.up args) db).2 =
          versions db ++ made.map (fun file => (file.number : ℤ)) ∧
        ((shmig psql directory (.up args) db).1 = true ↔ rest = []) := by
  have ran := @shmig_up psql directory db table args options parsed steps till
  refine ⟨_, due_dueFiles ten (lastVersion db) options, ran, ?_⟩
  rw [ran]
  exact versions_applyAll_up ten tidy table options

theorem table_originalCatalog : HasVersionTable Postgres.originalCatalog.fresh := rfl

/-- Two steps from the schema before the migrations. -/
theorem up_applies_two :
    ∃ due, Due Repository.directory (lastVersion Postgres.originalCatalog.fresh) ⟨['2'], []⟩ due ∧
      shmig Repository.client Repository.directory (.up ["steps=2"])
          Postgres.originalCatalog.fresh =
        applyAll (process Repository.client .up) due Postgres.originalCatalog.fresh ∧
      ∃ made rest, due = made ++ rest ∧
        versions (shmig Repository.client Repository.directory (.up ["steps=2"])
            Postgres.originalCatalog.fresh).2 =
          versions Postgres.originalCatalog.fresh ++ made.map (fun file => (file.number : ℤ)) ∧
        ((shmig Repository.client Repository.directory (.up ["steps=2"])
            Postgres.originalCatalog.fresh).1 = true ↔ rest = []) :=
  up_applies_due (tenDigits_of_holds Repository.holds_directory)
    (tidyUps_of_holds Repository.client_reads Repository.holds_directory) table_originalCatalog
    (rfl : parseOptions {} ["steps=2"] = some ⟨['2'], []⟩) rfl rfl

/-- Recording later versions does not lower the last one. -/
theorem lastVersion_mono {after : Database} {more : List ℤ}
    (grown : versions after = versions db ++ more) (later : ∀ v ∈ more, lastVersion db < v) :
    lastVersion db ≤ lastVersion after := by
  by_cases recorded : versions db = []
  · cases more with
    | nil =>
        rw [List.append_nil] at grown
        simp only [lastVersion, previousVersions_one, grown, le_refl]
    | cons v more =>
        have isLast := @lastVersion_le after v (grown ▸ by simp)
        exact (later v List.mem_cons_self).le.trans isLast
  · exact lastVersion_le (grown ▸ List.mem_append_left _ (lastVersion_mem recorded))

/-- After an `up` without options that succeeded no migration is after the last
version. -/
theorem lastVersion_after_up (ten : directory.TenDigits) (tidy : TidyUps psql directory)
    (table : HasVersionTable db) (succeeds : (shmig psql directory (.up []) db).1 = true)
    {file : MigrationFile} (listed : file ∈ directory.files) (migration : file.IsMigration) :
    (file.number : ℤ) ≤ lastVersion (shmig psql directory (.up []) db).2 := by
  have ran := @shmig_up psql directory db table [] {} rfl rfl rfl
  have due := due_dueFiles ten (lastVersion db) {}
  obtain ⟨made, rest, split, recorded, whole⟩ := versions_applyAll_up ten tidy table {}
  rw [ran] at succeeds ⊢
  obtain rfl := whole.mp succeeds
  rw [List.append_nil] at split
  by_cases later : lastVersion db < (file.number : ℤ)
  · -- with neither steps nor `TILL` every later migration is due, and has been recorded
    have isDue : file ∈ dueFiles directory (lastVersion db) {} := by
      by_contra missing
      obtain ⟨noSteps, -⟩ := due.first file listed migration later
        (fun stopver impossible => by cases impossible) missing
      cases noSteps
    refine lastVersion_le ?_
    rw [recorded, ← split]
    exact List.mem_append_right _ (List.mem_map_of_mem isDue)
  · refine (not_lt.mp later).trans (lastVersion_mono recorded ?_)
    rintro v member
    obtain ⟨other, isMade, rfl⟩ := List.mem_map.mp member
    exact (due.pending other (split ▸ isMade)).2.2.1

/-- **`up` is done after it succeeded once**: nothing is pending any more, and the
next `up` succeeds and changes nothing. -/
theorem up_twice (ten : directory.TenDigits) (tidy : TidyUps psql directory)
    (table : HasVersionTable db) (succeeds : (shmig psql directory (.up []) db).1 = true) :
    let after := (shmig psql directory (.up []) db).2
    pendingMigrations directory (lastVersion after) none = [] ∧
      shmig psql directory (.up []) after = (true, after) := by
  intro after
  have nothing : pendingMigrations directory (lastVersion after) none = [] := by
    refine List.eq_nil_iff_forall_not_mem.mpr fun file member => ?_
    obtain ⟨listed, migration, later⟩ := mem_pendingMigrations.mp member
    exact absurd later (not_lt.mpr
      (lastVersion_after_up ten tidy table succeeds listed migration))
  refine ⟨nothing, ?_⟩
  have stillTable : HasVersionTable after := by
    have ran := @shmig_up psql directory db table [] {} rfl rfl rfl
    have due := due_dueFiles ten (lastVersion db) {}
    simp only [after, ran]
    exact applyAll_keeps HasVersionTable (fun file member state holds =>
      (process_up_versions ten tidy (due.pending file member).1 (due.pending file member).2.1
        holds).1) table
  rw [shmig_up stillTable (rfl : parseOptions {} [] = some {}) rfl rfl]
  have none : dueFiles directory (lastVersion after) {} = [] := by
    simp only [dueFiles, show stepsOf ({} : Options).steps = Option.none from rfl, nothing,
      List.takeWhile_nil]
  rw [none]
  rfl

/-- All migrations, applied to the schema before them. -/
theorem up_all_twice :
    let after := (shmig Repository.client Repository.directory (.up [])
      Postgres.originalCatalog.fresh).2
    pendingMigrations Repository.directory (lastVersion after) none = [] ∧
      shmig Repository.client Repository.directory (.up []) after = (true, after) :=
  up_twice (tenDigits_of_holds Repository.holds_directory)
    (tidyUps_of_holds Repository.client_reads Repository.holds_directory) table_originalCatalog
    (by decide +kernel)

end Up

end DawnPatrol.Shmig

import DawnPatrol.Foundation.Changes
import DawnPatrol.Postgres.Migrations
import DawnPatrol.Shmig.Files

/-!
# The actions of shmig

`shmig up` applies the pending migrations, `down` reverts the applied ones, and
`rollback` and `redo` are put together from these. One migration is a section
of a file, sent to `psql` with the statement that records or drops its version
in the table `shmig_version`. `psql` stops at the first statement that fails,
and so does the loop over the migrations.

How `psql` and the server read the text of a section is a parameter
(`Psql.commands`), and so is the clock that fills `migrated_at`. A section is
taken to end its last statement, and not to touch the columns of the version
table.

The options should be numbers, but the test for them looks at what `echo` prints of
them, line by line (`isNumeric`). A text that passes and is no number goes into the
commands and the queries as it is, and what comes of that is a parameter too
(`Psql.misread`). Arguments of one line that `echo` does not take for its own options
are never misread (`isNumeric_of_isPlain`).
-/

set_option autoImplicit false

namespace DawnPatrol.Shmig

open Foundation Foundation.Schemas Foundation.Changes

/-- The options of an action, which are empty when they are not given. -/
structure Options where
  steps : List Char := []
  till : List Char := []

/-- Whether migrations are applied or reverted. -/
inductive Direction where
  | up
  | down
  deriving DecidableEq

/-- The client of the database: how it reads the lines of a section, when a version is
recorded, and what comes of options that are no numbers where these are expected. -/
structure Psql where
  commands : List String → List Command
  migratedAt : ℕ → ℤ
  misread : Direction → Options → Database → Bool × Database

/-! ## The version table -/

/-- The number of an SQL literal. -/
def sqlNumber (text : List Char) : Option ℕ :=
  if text ≠ [] ∧ text.all Char.isDigit = true then some (Nat.ofDigitChars 10 text 0) else none

/-- The number in a cell. -/
def numberOf : Value → Option ℤ
  | .number value => some value
  | _ => none

/-- The versions that are recorded, in the order of the rows. -/
def versions (db : Database) : List ℤ :=
  (db.values "shmig_version" "version").filterMap numberOf

/-- A database with other rows of the version table. -/
def withVersionRows (db : Database) (rows : List Row) : Database :=
  { db with rows := Function.update db.rows "shmig_version" rows }

/-- `insert into "shmig_version"(version) values(…)`. A version is an integer of
32 bits, and a primary key. -/
def bumpVersion (psql : Psql) (version : List Char) (db : Database) : Option Database :=
  (sqlNumber version).bind fun n =>
    if db.catalog.columns "shmig_version" = Postgres.shmigColumns ∧ n < 2147483648 ∧
        (n : ℤ) ∉ versions db then
      some (withVersionRows db (db.rows "shmig_version" ++
        [[some (.number n), some (.instant (psql.migratedAt n))]]))
    else none

/-- `delete from "shmig_version" where version = …`. -/
def dropVersion (version : List Char) (db : Database) : Option Database :=
  (sqlNumber version).bind fun n =>
    if db.catalog.columns "shmig_version" = Postgres.shmigColumns then
      some (withVersionRows db
        ((db.rows "shmig_version").filter fun row => row.head? ≠ some (some (.number n))))
    else none

/-- `postgresql_previous_versions`: the last versions, the greatest first. The query
orders the texts that `to_char` writes, which is the order of the versions as these are
not negative. It fails over a limit that is no `bigint`, and nothing is read then. -/
def previousVersions (db : Database) (limit : Option ℕ) : List ℤ :=
  if limit.any (9223372036854775808 ≤ ·) then []
  else atMost limit ((versions db).insertionSort (· ≥ ·))

/-- The last version that `pending_migrations` compares with. -/
def lastVersion (db : Database) : ℤ := (previousVersions db (some 1)).head?.getD 0

/-- `postgresql_check`: the version table is created when it is missing. -/
def postgresqlCheck (db : Database) : Bool × Database :=
  if db.catalog.hasTable "shmig_version" then (true, db)
  else
    match execStatements [.createTable "shmig_version" Postgres.shmigColumns,
      .addPrimaryKey "shmig_version" "shmig_version_pkey" "version"] db with
    | some after => (true, after)
    | none => (false, db)

/-! ## One migration -/

/-- What is sent to `psql`. -/
inductive Input where
  | command (command : Command)
  | bumpVersion (version : List Char)
  | dropVersion (version : List Char)

/-- Run a script up to the first statement that fails. The end of the session, and
a failure, undo the block that is open. -/
def psqlSession (psql : Psql) : List Input → Session → Bool × Database
  | [], s => (true, s.saved.getD s.db)
  | .command .begin :: rest, s =>
      psqlSession psql rest { s with saved := some (s.saved.getD s.db) }
  | .command .commit :: rest, s => psqlSession psql rest { s with saved := none }
  | .command (.statement statement) :: rest, s =>
      match statement.exec s.db with
      | some after => psqlSession psql rest { s with db := after }
      | none => (false, s.saved.getD s.db)
  | .bumpVersion version :: rest, s =>
      match bumpVersion psql version s.db with
      | some after => psqlSession psql rest { s with db := after }
      | none => (false, s.saved.getD s.db)
  | .dropVersion version :: rest, s =>
      match dropVersion version s.db with
      | some after => psqlSession psql rest { s with db := after }
      | none => (false, s.saved.getD s.db)

/-- The marker of the section. -/
def Direction.since : Direction → String
  | up => upMark
  | down => downMark

/-- The marker of the other section. -/
def Direction.till : Direction → String
  | up => downMark
  | down => upMark

/-- The statement that follows the section. -/
def Direction.versionChange : Direction → List Char → Input
  | up => .bumpVersion
  | down => .dropVersion

/-- The section of a migration with its version change, in one session. A missing
section fails, and `psql` is given nothing. -/
def process (psql : Psql) (me : Direction) (file : MigrationFile) (db : Database) :
    Bool × Database :=
  match migrationSection file me.since me.till with
  | none => (false, db)
  | some text =>
      psqlSession psql ((psql.commands text).map .command ++ [me.versionChange file.version])
        ⟨db, none⟩

/-! ## The loop over migrations -/

/-- Read the options, unless one is unknown or comes twice. -/
def parseOptions (options : Options) : List String → Option Options
  | [] => some options
  | arg :: args =>
      if "steps=".toList <+: arg.toList then
        parseOptions { options with steps := arg.toList.drop 6 } args
      else if "till=".toList <+: arg.toList then
        parseOptions { options with till := arg.toList.drop 5 } args
      else if '=' ∈ arg.toList then none
      else if options.till = [] then parseOptions { options with till := arg.toList } args
      else none

/-- The text is a number or empty. -/
def isNumber (text : List Char) : Bool := text.all Char.isDigit

/-- What `echo` takes for its own options: a hyphen, and letters that it knows. -/
def isEchoOption : List Char → Bool
  | '-' :: letters => letters != [] && letters.all fun c => c == 'n' || c == 'e' || c == 'E'
  | _ => false

/-- The lines that `echo` prints. -/
def echoed (text : List Char) : List (List Char) :=
  if isEchoOption text then if 'n' ∈ text then [] else [[]]
  else text.splitOn '\n'

/-- `is_numeric`: some line of what `echo` prints is a number or empty. -/
def isNumeric (text : List Char) : Bool := (echoed text).any isNumber

/-- An integer of the shell has 64 bits. -/
def wrapped (n : ℕ) : ℤ := Int.bmod n (2 ^ 64)

/-- The value of digits in an arithmetic expression of the shell, in which a
leading zero makes them octal. -/
def arithmetic (text : List Char) : Option ℤ :=
  if text = [] then none
  else if text.head? = some '0' then
    if text.all (· < '8') then some (wrapped (Nat.ofDigitChars 8 text 0)) else none
  else some (wrapped (Nat.ofDigitChars 10 text 0))

/-- Whether the loop stops before a version. A comparison of what is no number
fails. -/
def Direction.stops (me : Direction) (stopver version : List Char) : Bool :=
  match arithmetic version, arithmetic stopver with
  | some version, some stopver =>
      match me with
      | up => stopver < version
      | down => version < stopver
  | _, _ => false

/-- The loop of `migrate`. -/
def migrateAll (psql : Psql) (me : Direction) (stopver : List Char) :
    List MigrationFile → Database → Bool × Database
  | [], db => (true, db)
  | file :: files, db =>
      if me.stops stopver file.version then (true, db)
      else andThen (process psql me file db) (migrateAll psql me stopver files)

/-- A number of steps, if it is given. -/
def stepsOf (steps : List Char) : Option ℕ :=
  if steps = [] then none else some (Nat.ofDigitChars 10 steps 0)

/-- The files that an action goes through. They are listed before it starts. -/
def Direction.source (me : Direction) (directory : MigrationsDirectory) (db : Database)
    (steps : Option ℕ) : List MigrationFile :=
  match me with
  | up => pendingMigrations directory (lastVersion db) steps
  | down => previousMigrations directory (previousVersions db steps)

/-- `migrate`, for `up` and for `down`. -/
def migrate (psql : Psql) (directory : MigrationsDirectory) (me : Direction)
    (args : List String) (db : Database) : Bool × Database :=
  match parseOptions {} args with
  | none => (false, db)
  | some options =>
      if isNumeric options.steps && isNumeric options.till then
        if isNumber options.steps && isNumber options.till then
          migrateAll psql me options.till (me.source directory db (stepsOf options.steps)) db
        else psql.misread me options db
      else (false, db)

/-! ## The actions -/

/-- The actions on a database, with their arguments. -/
inductive Action where
  | up (args : List String)
  | down (args : List String)
  | rollback (args : List String)
  | redo (args : List String)
  | pending (args : List String)
  | status

/-- The arguments of an action. -/
def Action.args : Action → List String
  | up args | down args | rollback args | redo args | pending args => args
  | status => []

/-- `redo` reverts, and applies up to the version that was the last one. -/
def redo (psql : Psql) (directory : MigrationsDirectory) (args : List String) (db : Database) :
    Bool × Database :=
  match (previousVersions db (some 1)).head? with
  | none => (true, db)
  | some currentVersion =>
      if currentVersion = 0 then (true, db)
      else andThen (migrate psql directory .down args db)
        (migrate psql directory .up [String.ofList (toChar currentVersion)])

/-- What an action does. -/
def Action.run (psql : Psql) (directory : MigrationsDirectory) :
    Action → Database → Bool × Database
  | up args, db => migrate psql directory .up args db
  | down args, db => migrate psql directory .down args db
  | rollback [], db => migrate psql directory .down ["steps=1"] db
  | rollback [count], db =>
      migrate psql directory .down ["steps=" ++ if count = "" then "1" else count] db
  | rollback _, db => (false, db)
  | redo args, db => Shmig.redo psql directory args db
  | pending args, db => (args = [], db)
  | status, db => (true, db)

/-- `shmig` with an action: the exit status, and the database afterwards. -/
def shmig (psql : Psql) (directory : MigrationsDirectory) (action : Action) (db : Database) :
    Bool × Database :=
  andThen (postgresqlCheck db) (action.run psql directory)

/-! ## Arguments that are not misread -/

/-- A text of one line that `echo` does not take for its own options. -/
structure IsPlain (text : List Char) : Prop where
  oneLine : '\n' ∉ text
  noOption : isEchoOption text = false

/-- The value of an argument that sets an option by its name. -/
def valueOf (arg : List Char) : List Char := (arg.dropWhile (· ≠ '=')).tail

/-- Some arguments are plain, and so are the values in them. -/
def ArePlain (args : List String) : Prop :=
  ∀ arg ∈ args, IsPlain arg.toList ∧ IsPlain (valueOf arg.toList)

section Plain

variable {text : List Char}

theorem isPlain_nil : IsPlain [] := ⟨List.not_mem_nil, rfl⟩

/-- A text without line feeds, and without the letters of the options of `echo`. -/
theorem isPlain_of_forall
    (known : ∀ c ∈ text, c ≠ '\n' ∧ c ≠ 'n' ∧ c ≠ 'e' ∧ c ≠ 'E') : IsPlain text := by
  refine ⟨fun newline => (known '\n' newline).1 rfl, ?_⟩
  unfold isEchoOption
  split
  · rename_i letters
    cases letters with
    | nil => rfl
    | cons c letters =>
        obtain ⟨-, n, e, bigE⟩ := known c (List.mem_cons_of_mem _ List.mem_cons_self)
        simp [n, e, bigE]
  · rfl

theorem known_of_isDigit {c : Char} (digit : c.isDigit = true) :
    c ≠ '\n' ∧ c ≠ 'n' ∧ c ≠ 'e' ∧ c ≠ 'E' := by
  refine ⟨?_, ?_, ?_, ?_⟩ <;>
    rintro rfl <;>
    cases digit

/-- A number is plain. -/
theorem isPlain_of_isNumber (number : isNumber text = true) : IsPlain text :=
  isPlain_of_forall fun c member => known_of_isDigit (List.all_eq_true.mp number c member)

theorem arePlain_nil : ArePlain [] := fun _ member => nomatch member

/-- **A plain text is numeric** when it is a number. -/
theorem isNumeric_of_isPlain (plain : IsPlain text) : isNumeric text = isNumber text := by
  have whole : text.splitOn '\n' = [text] := by
    refine List.splitOnP_eq_singleton fun c member => ?_
    rw [beq_eq_false_iff_ne]
    rintro rfl
    exact plain.oneLine member
  rw [isNumeric, echoed, plain.noOption, if_neg Bool.false_ne_true, whole]
  simp

theorem isNumeric_of_isNumber (number : isNumber text = true) : isNumeric text = true :=
  (isNumeric_of_isPlain (isPlain_of_isNumber number)).trans number

/-- The options that plain arguments set are plain. -/
theorem parseOptions_isPlain {args : List String} {given options : Options}
    (plain : ArePlain args) (steps : IsPlain given.steps) (till : IsPlain given.till)
    (parsed : parseOptions given args = some options) :
    IsPlain options.steps ∧ IsPlain options.till := by
  induction args generalizing given with
  | nil =>
      cases parsed
      exact ⟨steps, till⟩
  | cons arg args ih =>
      obtain ⟨whole, value⟩ := plain arg List.mem_cons_self
      have later : ArePlain args := fun arg member => plain arg (List.mem_cons_of_mem _ member)
      rw [parseOptions] at parsed
      split at parsed
      · rename_i named
        obtain ⟨rest, split⟩ := named
        have isValue : valueOf arg.toList = arg.toList.drop 6 := by
          rw [← split]
          rfl
        exact @ih ⟨arg.toList.drop 6, given.till⟩ later (isValue ▸ value) till parsed
      · split at parsed
        · rename_i named
          obtain ⟨rest, split⟩ := named
          have isValue : valueOf arg.toList = arg.toList.drop 5 := by
            rw [← split]
            rfl
          exact @ih ⟨given.steps, arg.toList.drop 5⟩ later steps (isValue ▸ value) parsed
        · split at parsed
          · cases parsed
          · split at parsed
            · exact @ih ⟨given.steps, arg.toList⟩ later steps whole parsed
            · cases parsed

end Plain

end DawnPatrol.Shmig

import Mathlib.Data.Int.Notation
import Mathlib.Data.List.Basic
import Mathlib.Data.List.Forall2
import Mathlib.Data.List.Nodup

/-!
# Statements that change a schema

A database is a catalog of tables, indexes, constraints and sequences, with the
rows of each table and the next value of each sequence. A statement is judged
twice: by the catalog, which must know the names it uses and not know those it
introduces (`Statement.alter`), and by the rows, which must satisfy what it
demands of them (`Statement.Admits`). When both accept, it changes the catalog,
the rows and the sequences (`Statement.exec`).

A session runs commands up to the first that fails. Statements between `BEGIN`
and `COMMIT` take effect together or not at all (`runScript_block`), and
statements outside take effect one by one (`runScript_statements`).

Statements that only create and add keep every row and every value of it
(`execStatements_grows`).
-/

set_option autoImplicit false

namespace DawnPatrol.Foundation.Schemas

/-! ## Values, columns and tables -/

/-- The types of columns. -/
inductive ColumnType where
  | integer
  | bigint
  | text
  | boolean
  | timestamp
  | timestamptz
  deriving DecidableEq

/-- A value of a column. An instant is given in microseconds. -/
inductive Value where
  | number (value : ℤ)
  | text (value : String)
  | boolean (value : Bool)
  | instant (microseconds : ℤ)
  deriving DecidableEq

/-- Whether a value has a type. -/
def ColumnType.holds : ColumnType → Value → Bool
  | integer, .number _ | bigint, .number _ => true
  | text, .text _ => true
  | boolean, .boolean _ => true
  | timestamp, .instant _ | timestamptz, .instant _ => true
  | _, _ => false

/-- A row, cell by cell. A `NULL` is `none`. -/
abbrev Row := List (Option Value)

/-- The default of a column. -/
inductive Default where
  | literal (value : Value)
  | nextval (sequence : String)
  | expression (text : String)
  deriving DecidableEq

structure Column where
  name : String
  type : ColumnType
  notNull : Bool := false
  defaultValue : Option Default := none
  deriving DecidableEq

/-- Whether a cell may stand in a column. -/
def Column.accepts (column : Column) : Option Value → Bool
  | none => !column.notNull
  | some value => column.type.holds value

/-- A cell that may be null stands in a nullable column of its type. -/
theorem Column.accepts_map {α : Type} {column : Column} {value : α → Value}
    (nullable : column.notNull = false) (typed : ∀ cell, column.type.holds (value cell) = true)
    (cell : Option α) : column.accepts (cell.map value) = true := by
  cases cell with
  | none => simp [accepts, nullable]
  | some cell => exact typed cell

structure Table where
  name : String
  columns : List Column
  deriving DecidableEq

structure Index where
  name : String
  table : String
  column : String
  unique : Bool
  deriving DecidableEq

inductive ConstraintKind where
  | primaryKey
  | foreignKey (refTable refColumn : String)
  deriving DecidableEq

/-- Whether a constraint refers to a column of a table, or to any of its columns. -/
def ConstraintKind.refersTo (table : String) (column : Option String) : ConstraintKind → Bool
  | primaryKey => false
  | foreignKey refTable refColumn => refTable == table && column.all (· == refColumn)

/-- A constraint of a column of a table. -/
structure TableConstraint where
  name : String
  table : String
  column : String
  kind : ConstraintKind
  deriving DecidableEq

/-- A sequence, with the column of a table that owns it. -/
structure Sequence where
  name : String
  ownedBy : Option (String × String)
  deriving DecidableEq

/-- Whether a sequence is owned by a column of a table, or by any of its columns. -/
def Sequence.ownedIn (s : Sequence) (table : String) (column : Option String) : Bool :=
  s.ownedBy.any fun owner => owner.1 == table && column.all (· == owner.2)

/-! ## Catalogs -/

structure Catalog where
  tables : List Table
  indexes : List Index
  constraints : List TableConstraint
  sequences : List Sequence
  deriving DecidableEq

namespace Catalog

variable (c : Catalog)

/-- The names of tables, indexes and sequences share one space, with those of the
indexes of primary keys. -/
def relations : List String :=
  c.tables.map Table.name ++ c.indexes.map Index.name ++
    (c.constraints.filter fun constraint => constraint.kind = .primaryKey).map
      TableConstraint.name ++
    c.sequences.map Sequence.name

/-- The columns of a table. -/
def columns (table : String) : List Column :=
  ((c.tables.find? fun t => t.name = table).map Table.columns).getD []

def hasTable (table : String) : Prop := table ∈ c.tables.map Table.name

def hasColumn (table column : String) : Prop := column ∈ (c.columns table).map Column.name

/-- The place of a column in the rows of its table. -/
def place (table column : String) : ℕ :=
  (c.columns table).findIdx fun col => col.name = column

/-- A name for a relation: the base, or the first number after it that is free. -/
def freshName (base : String) : String :=
  if base ∉ c.relations then base
  else (((List.range (c.relations.length + 1)).map fun n => base ++ toString (n + 1)).find?
    fun name => name ∉ c.relations).getD base

/-- The catalog with other columns of a table. -/
def modifyColumns (table : String) (change : List Column → List Column) : Catalog :=
  { c with tables := c.tables.map fun t =>
      if t.name = table then { t with columns := change t.columns } else t }

/-- A foreign key of another table refers to the table, or to the column. -/
def isReferenced (table : String) (column : Option String) : Prop :=
  ∃ constraint ∈ c.constraints,
    constraint.table ≠ table ∧ constraint.kind.refersTo table column = true

/-- A default elsewhere reads a sequence that the table, or the column, owns. -/
def lendsSequence (table : String) (column : Option String) : Prop :=
  ∃ s ∈ c.sequences, s.ownedIn table column = true ∧
    ∃ t ∈ c.tables, ∃ col ∈ t.columns, col.defaultValue = some (.nextval s.name) ∧
      ¬ (t.name = table ∧ column.all (· == col.name) = true)

/-- A default can be read. -/
def hasDefault : Default → Prop
  | .nextval s => s ∈ c.sequences.map Sequence.name
  | _ => True

/-- A unique index or a primary key of the column. -/
def hasKey (table column : String) : Prop :=
  (∃ index ∈ c.indexes, index.table = table ∧ index.column = column ∧ index.unique = true) ∨
    ∃ constraint ∈ c.constraints,
      constraint.table = table ∧ constraint.column = column ∧ constraint.kind = .primaryKey

instance (table : String) : Decidable (c.hasTable table) :=
  inferInstanceAs (Decidable (_ ∈ _))

instance (table column : String) : Decidable (c.hasColumn table column) :=
  inferInstanceAs (Decidable (_ ∈ _))

instance (table : String) (column : Option String) : Decidable (c.isReferenced table column) :=
  inferInstanceAs (Decidable (∃ _ ∈ _, _))

instance (table : String) (column : Option String) : Decidable (c.lendsSequence table column) :=
  inferInstanceAs (Decidable (∃ _ ∈ _, _))

instance : (value : Default) → Decidable (c.hasDefault value)
  | .nextval _ => inferInstanceAs (Decidable (_ ∈ _))
  | .literal _ => instDecidableTrue
  | .expression _ => instDecidableTrue

instance (table column : String) : Decidable (c.hasKey table column) :=
  inferInstanceAs (Decidable (_ ∨ _))

end Catalog

/-! ## Statements and the catalog -/

/-- A statement of the data definition language. `unparsed` is a text that the
grammar refuses. -/
inductive Statement where
  | createTable (name : String) (columns : List Column)
  | createIndex (unique : Bool) (table column : String)
  | createSequence (name : String)
  | setOwner (sequence table column : String)
  | setDefault (table column : String) (defaultValue : Default)
  | addPrimaryKey (table name column : String)
  | addForeignKey (table name column refTable refColumn : String)
  | addColumn (table column : String) (type : ColumnType) (notNull : Bool)
  | dropTable (name : String)
  | dropConstraint (table name : String)
  | dropColumn (table column : String)
  | unparsed (text : String)
  deriving DecidableEq

/-- The catalog after a statement, unless the catalog refuses it. A table or a
column takes its indexes, its constraints and the sequences it owns with it. -/
def Statement.alter : Statement → Catalog → Option Catalog
  | createTable name columns, c =>
      if name ∉ c.relations ∧ (columns.map Column.name).Nodup then
        some { c with tables := c.tables ++ [⟨name, columns⟩] }
      else none
  | createIndex unique table column, c =>
      if c.hasColumn table column then
        let name := c.freshName (table ++ "_" ++ column ++ "_idx")
        some { c with indexes := c.indexes ++ [⟨name, table, column, unique⟩] }
      else none
  | createSequence name, c =>
      if name ∉ c.relations then some { c with sequences := c.sequences ++ [⟨name, none⟩] }
      else none
  | setOwner sequence table column, c =>
      if sequence ∈ c.sequences.map Sequence.name ∧ c.hasColumn table column then
        some { c with sequences := c.sequences.map fun s =>
          if s.name = sequence then { s with ownedBy := some (table, column) } else s }
      else none
  | setDefault table column defaultValue, c =>
      if c.hasColumn table column ∧ c.hasDefault defaultValue then
        some (c.modifyColumns table fun columns => columns.map fun col =>
          if col.name = column then { col with defaultValue := some defaultValue } else col)
      else none
  | addPrimaryKey table name column, c =>
      if c.hasColumn table column ∧ name ∉ c.relations ∧
          ∀ constraint ∈ c.constraints, constraint.table = table →
            constraint.kind ≠ .primaryKey then
        some { c.modifyColumns table fun columns => columns.map fun col =>
            if col.name = column then { col with notNull := true } else col with
          constraints := c.constraints ++ [⟨name, table, column, .primaryKey⟩] }
      else none
  | addForeignKey table name column refTable refColumn, c =>
      if c.hasColumn table column ∧ c.hasColumn refTable refColumn ∧ c.hasKey refTable refColumn ∧
          ∀ constraint ∈ c.constraints, constraint.table = table → constraint.name ≠ name then
        some { c with
          constraints := c.constraints ++ [⟨name, table, column, .foreignKey refTable refColumn⟩] }
      else none
  | addColumn table column type notNull, c =>
      if c.hasTable table ∧ ¬ c.hasColumn table column then
        some (c.modifyColumns table (· ++ [⟨column, type, notNull, none⟩]))
      else none
  | dropTable name, c =>
      if c.hasTable name ∧ ¬ c.isReferenced name none ∧ ¬ c.lendsSequence name none then
        some {
          tables := c.tables.filter fun t => t.name ≠ name
          indexes := c.indexes.filter fun index => index.table ≠ name
          constraints := c.constraints.filter fun constraint => constraint.table ≠ name
          sequences := c.sequences.filter fun s => !s.ownedIn name none }
      else none
  | dropConstraint table name, c =>
      if ∃ constraint ∈ c.constraints, constraint.table = table ∧ constraint.name = name ∧
          ¬ (constraint.kind = .primaryKey ∧
            c.isReferenced table (some constraint.column)) then
        some { c with constraints := c.constraints.filter fun constraint =>
          ¬ (constraint.table = table ∧ constraint.name = name) }
      else none
  | dropColumn table column, c =>
      if c.hasColumn table column ∧ ¬ c.isReferenced table (some column) ∧
          ¬ c.lendsSequence table (some column) then
        some { c.modifyColumns table fun columns => columns.filter fun col => col.name ≠ column with
          indexes := c.indexes.filter fun index =>
            ¬ (index.table = table ∧ index.column = column)
          constraints := c.constraints.filter fun constraint =>
            ¬ (constraint.table = table ∧ constraint.column = column)
          sequences := c.sequences.filter fun s => !s.ownedIn table (some column) }
      else none
  | unparsed _, _ => none

/-! ## Databases -/

/-- A catalog with the rows of its tables and the next values of its sequences. -/
@[ext] structure Database where
  catalog : Catalog
  rows : String → List Row
  next : String → ℤ

namespace Database

variable (db : Database)

/-- The values of a column, without its nulls. -/
def values (table column : String) : List Value :=
  (db.rows table).filterMap fun row => (row[db.catalog.place table column]?).join

/-- A column of rows that are given cell by cell. -/
theorem values_of_cells {α : Type} {db : Database} {table column : String} {source : List α}
    {cells : α → Row} {value : α → Value} (stored : db.rows table = source.map cells)
    (reads : ∀ row, ((cells row)[db.catalog.place table column]?).join = some (value row)) :
    db.values table column = source.map value := by
  rw [values, stored, List.filterMap_map]
  exact List.filterMap_eq_map_iff_forall_eq_some.mpr fun row _ => reads row

/-- A primary key is unique, and a foreign key is that of a row. -/
def Satisfies (constraint : TableConstraint) : Prop :=
  match constraint.kind with
  | .primaryKey => (db.values constraint.table constraint.column).Nodup
  | .foreignKey refTable refColumn =>
      ∀ value ∈ db.values constraint.table constraint.column, value ∈ db.values refTable refColumn

instance (constraint : TableConstraint) : Decidable (db.Satisfies constraint) :=
  match kind : constraint.kind with
  | .primaryKey => decidable_of_iff (db.values constraint.table constraint.column).Nodup <| by
      rw [Satisfies, kind]
  | .foreignKey refTable refColumn => decidable_of_iff
      (∀ value ∈ db.values constraint.table constraint.column,
        value ∈ db.values refTable refColumn) <| by
      rw [Satisfies, kind]

/-- The rows satisfy their columns, the unique indexes and the constraints. A table
that the catalog does not have holds no rows, and a sequence that it does not have
has not been read. -/
structure Conforms : Prop where
  tables : ∀ table, ¬ db.catalog.hasTable table → db.rows table = []
  sequences : ∀ s, s ∉ db.catalog.sequences.map Sequence.name → db.next s = 1
  cells : ∀ t ∈ db.catalog.tables, ∀ row ∈ db.rows t.name,
    List.Forall₂ (fun column cell => column.accepts cell = true) t.columns row
  indexes : ∀ index ∈ db.catalog.indexes, index.unique = true →
    (db.values index.table index.column).Nodup
  constraints : ∀ constraint ∈ db.catalog.constraints, db.Satisfies constraint

end Database

namespace Statement

/-- What a statement demands of the rows: a key must be unique, and a primary key
set; a foreign key must be that of a row; and only an empty table takes a new
column that must be set. -/
def Admits (db : Database) : Statement → Prop
  | createIndex unique table column => unique = true → (db.values table column).Nodup
  | addPrimaryKey table _ column =>
      (db.values table column).Nodup ∧
        (db.values table column).length = (db.rows table).length
  | addForeignKey table _ column refTable refColumn =>
      ∀ value ∈ db.values table column, value ∈ db.values refTable refColumn
  | addColumn table _ _ notNull => notNull = true → db.rows table = []
  | _ => True

instance (db : Database) : (statement : Statement) → Decidable (statement.Admits db)
  | createIndex .. => inferInstanceAs (Decidable (_ → _))
  | addPrimaryKey .. => inferInstanceAs (Decidable (_ ∧ _))
  | addForeignKey .. => inferInstanceAs (Decidable (∀ _ ∈ _, _))
  | addColumn .. => inferInstanceAs (Decidable (_ → _))
  | createTable .. | createSequence .. | setOwner .. | setDefault .. | dropTable ..
  | dropConstraint .. | dropColumn .. | unparsed .. => instDecidableTrue

/-- The rows after a statement. A new column holds null. -/
def rows (db : Database) : Statement → String → List Row
  | createTable name _, table => if table = name then [] else db.rows table
  | addColumn name _ _ _, table =>
      if table = name then (db.rows table).map (· ++ [none]) else db.rows table
  | dropTable name, table => if table = name then [] else db.rows table
  | dropColumn name column, table =>
      if table = name then (db.rows table).map (·.eraseIdx (db.catalog.place name column))
      else db.rows table
  | _, table => db.rows table

/-- The next values after a statement. A sequence starts with one. -/
def next (db : Database) : Statement → String → ℤ
  | createSequence name, s => if s = name then 1 else db.next s
  | dropTable name, s =>
      if s ∈ (db.catalog.sequences.filter (·.ownedIn name none)).map Sequence.name then 1
      else db.next s
  | dropColumn name column, s =>
      if s ∈ (db.catalog.sequences.filter (·.ownedIn name (some column))).map Sequence.name then 1
      else db.next s
  | _, s => db.next s

/-- A statement, which changes nothing when it is refused. -/
def exec (statement : Statement) (db : Database) : Option Database :=
  (statement.alter db.catalog).bind fun catalog =>
    if statement.Admits db then some ⟨catalog, statement.rows db, statement.next db⟩ else none

theorem exec_eq_some {statement : Statement} {db after : Database} :
    statement.exec db = some after ↔
      statement.alter db.catalog = some after.catalog ∧ statement.Admits db ∧
        after.rows = statement.rows db ∧ after.next = statement.next db := by
  obtain ⟨catalog, rows, next⟩ := after
  simp only [exec, Option.bind_eq_some_iff, Option.ite_none_right_eq_some, Option.some.injEq,
    Database.mk.injEq]
  constructor
  · rintro ⟨changed, altered, admits, rfl, rfl, rfl⟩
    exact ⟨altered, admits, rfl, rfl⟩
  · rintro ⟨altered, admits, rfl, rfl⟩
    exact ⟨_, altered, admits, rfl, rfl, rfl⟩

end Statement

/-- Statements one after the other, all of which must succeed. -/
def execStatements : List Statement → Database → Option Database
  | [], db => some db
  | statement :: statements, db => (statement.exec db).bind (execStatements statements)

/-! ## Databases without rows -/

/-- The catalog after statements, unless it refuses one. -/
def alterAll : List Statement → Catalog → Option Catalog
  | [], c => some c
  | statement :: statements, c => (statement.alter c).bind (alterAll statements)

/-- A new database. -/
def Catalog.fresh (c : Catalog) : Database := ⟨c, fun _ => [], fun _ => 1⟩

section Fresh

variable (c : Catalog)

@[simp] theorem fresh_values (table column : String) : c.fresh.values table column = [] := rfl

theorem fresh_conforms : c.fresh.Conforms where
  tables _ _ := rfl
  sequences _ _ := rfl
  cells _ _ := by simp [Catalog.fresh]
  indexes _ _ _ := .nil
  constraints constraint _ := by
    rw [Database.Satisfies]
    cases constraint.kind <;> simp

end Fresh

/-! ## Sessions -/

/-- A command of a script. -/
inductive Command where
  | begin
  | commit
  | statement (statement : Statement)

/-- A session: the database as it sees it, and the one it returns to when the block
that is open fails. -/
structure Session where
  db : Database
  saved : Option Database

/-- Run a script up to the first statement that fails. The end of a session, and a
failure, undo the block that is open. -/
def session : List Command → Session → Bool × Database
  | [], s => (true, s.saved.getD s.db)
  | .begin :: commands, s => session commands { s with saved := some (s.saved.getD s.db) }
  | .commit :: commands, s => session commands { s with saved := none }
  | .statement statement :: commands, s =>
      match statement.exec s.db with
      | some after => session commands { s with db := after }
      | none => (false, s.saved.getD s.db)

/-- Run a script on a database. -/
def runScript (commands : List Command) (db : Database) : Bool × Database :=
  session commands ⟨db, none⟩

/-- Inside a block, statements succeed together or return to where it began. -/
theorem session_block (statements : List Statement) (db start : Database) :
    session (statements.map .statement ++ [.commit]) ⟨db, some start⟩ =
      match execStatements statements db with
      | some after => (true, after)
      | none => (false, start) := by
  induction statements generalizing db with
  | nil => rfl
  | cons statement statements ih =>
      simp only [List.map_cons, List.cons_append, session, execStatements]
      cases statement.exec db with
      | none => rfl
      | some after => exact ih after

/-- **A script that is one block** succeeds when all of its statements do, and
leaves the database alone otherwise. -/
theorem runScript_block (statements : List Statement) (db : Database) :
    runScript (.begin :: (statements.map .statement ++ [.commit])) db =
      match execStatements statements db with
      | some after => (true, after)
      | none => (false, db) :=
  session_block statements db db

/-- **A script without a block** succeeds when all of its statements do. -/
theorem runScript_statements {statements : List Statement} {db after : Database} :
    runScript (statements.map .statement) db = (true, after) ↔
      execStatements statements db = some after := by
  induction statements generalizing db with
  | nil => simp [runScript, session, execStatements]
  | cons statement statements ih =>
      simp only [runScript, List.map_cons, session, execStatements]
      cases statement.exec db with
      | none => simp
      | some next => exact ih

/-! ## Statements that add -/

/-- A statement that creates or adds. -/
def Statement.Additive : Statement → Prop
  | dropTable _ | dropConstraint .. | dropColumn .. | unparsed _ => False
  | _ => True

instance : (statement : Statement) → Decidable statement.Additive
  | .dropTable _ | .dropConstraint .. | .dropColumn .. | .unparsed _ => instDecidableFalse
  | .createTable .. | .createIndex .. | .createSequence _ | .setOwner .. | .setDefault ..
  | .addPrimaryKey .. | .addForeignKey .. | .addColumn .. => instDecidableTrue

/-- The names and types of columns. -/
def signature (columns : List Column) : List (String × ColumnType) :=
  columns.map fun column => (column.name, column.type)

/-- A database keeps the tables of another, with their columns and their rows, and
every value of these. New columns come last. -/
structure Grows (before after : Database) : Prop where
  tables : ∀ t ∈ before.catalog.tables, ∃ kept ∈ after.catalog.tables,
    kept.name = t.name ∧ signature t.columns <+: signature kept.columns
  rows : ∀ t ∈ before.catalog.tables,
    List.Forall₂ (· <+: ·) (before.rows t.name) (after.rows t.name)

section Grows

variable {db after last : Database} {statement : Statement}

theorem forall₂_prefix_refl (rows : List Row) : List.Forall₂ (· <+: ·) rows rows :=
  List.forall₂_same.mpr fun _ _ => List.prefix_rfl

theorem forall₂_prefix_trans {first second third : List Row}
    (one : List.Forall₂ (· <+: ·) first second) (two : List.Forall₂ (· <+: ·) second third) :
    List.Forall₂ (· <+: ·) first third := by
  induction one generalizing third with
  | nil =>
      cases two
      exact .nil
  | cons head tail ih =>
      cases two with
      | cons next rest => exact .cons (head.trans next) (ih rest)

theorem Grows.refl (db : Database) : Grows db db where
  tables t member := ⟨t, member, rfl, List.prefix_rfl⟩
  rows t _ := forall₂_prefix_refl (db.rows t.name)

theorem Grows.trans (first : Grows db after) (second : Grows after last) : Grows db last := by
  constructor
  · intro t member
    obtain ⟨kept, keptMember, keptName, keptColumns⟩ := first.tables t member
    obtain ⟨lasting, lastMember, lastName, lastColumns⟩ := second.tables kept keptMember
    exact ⟨lasting, lastMember, lastName.trans keptName, keptColumns.trans lastColumns⟩
  · intro t member
    obtain ⟨kept, keptMember, keptName, -⟩ := first.tables t member
    have firstRows := first.rows t member
    exact forall₂_prefix_trans firstRows (keptName ▸ second.rows kept keptMember)

theorem mem_relations {c : Catalog} {t : Table} (member : t ∈ c.tables) :
    t.name ∈ c.relations := by
  simp only [Catalog.relations, List.mem_append]
  exact .inl (.inl (.inl (List.mem_map_of_mem member)))

theorem signature_starts_map {columns : List Column} {change : Column → Column}
    (keeps : ∀ col, (change col).name = col.name ∧ (change col).type = col.type) :
    signature columns <+: signature (columns.map change) := by
  have same : signature (columns.map change) = signature columns := by
    simp only [signature, List.map_map]
    exact List.map_congr_left fun col _ => Prod.ext (keeps col).1 (keeps col).2
  exact same ▸ List.prefix_rfl

/-- A change of columns that keeps names and types keeps the tables. -/
theorem modifyColumns_tables {c : Catalog} {table : String} {change : List Column → List Column}
    (keeps : ∀ columns, signature columns <+: signature (change columns)) :
    ∀ t ∈ c.tables, ∃ kept ∈ (c.modifyColumns table change).tables,
      kept.name = t.name ∧ signature t.columns <+: signature kept.columns := by
  intro t member
  refine ⟨_, List.mem_map_of_mem member, ?_⟩
  split
  · exact ⟨rfl, keeps t.columns⟩
  · exact ⟨rfl, List.prefix_rfl⟩

/-- **A statement that adds** keeps every row and every value of it. -/
theorem exec_grows (additive : statement.Additive) (ran : statement.exec db = some after) :
    Grows db after := by
  obtain ⟨altered, -, rows, -⟩ := Statement.exec_eq_some.mp ran
  have sameTables : after.catalog.tables = db.catalog.tables →
      ∀ t ∈ db.catalog.tables, ∃ kept ∈ after.catalog.tables,
        kept.name = t.name ∧ signature t.columns <+: signature kept.columns :=
    fun same t member => ⟨t, same ▸ member, rfl, List.prefix_rfl⟩
  have sameRows : after.rows = db.rows → ∀ t ∈ db.catalog.tables,
      List.Forall₂ (· <+: ·) (db.rows t.name) (after.rows t.name) :=
    fun same t _ => same ▸ forall₂_prefix_refl _
  cases statement with
  | createTable name columns =>
      obtain ⟨⟨isFree, -⟩, altered⟩ := Option.ite_none_right_eq_some.mp altered
      refine ⟨fun t member => ⟨t, ?_, rfl, List.prefix_rfl⟩, fun t member => ?_⟩
      · rw [← Option.some.inj altered]
        exact List.mem_append_left _ member
      · have other : t.name ≠ name := fun same => isFree (same ▸ mem_relations member)
        rw [rows]
        simp only [Statement.rows, if_neg other]
        exact forall₂_prefix_refl _
  | createIndex unique table column =>
      obtain ⟨-, altered⟩ := Option.ite_none_right_eq_some.mp altered
      exact ⟨sameTables (Option.some.inj altered ▸ rfl), sameRows rows⟩
  | createSequence name =>
      obtain ⟨-, altered⟩ := Option.ite_none_right_eq_some.mp altered
      exact ⟨sameTables (Option.some.inj altered ▸ rfl), sameRows rows⟩
  | setOwner sequence table column =>
      obtain ⟨-, altered⟩ := Option.ite_none_right_eq_some.mp altered
      exact ⟨sameTables (Option.some.inj altered ▸ rfl), sameRows rows⟩
  | addForeignKey table name column refTable refColumn =>
      obtain ⟨-, altered⟩ := Option.ite_none_right_eq_some.mp altered
      exact ⟨sameTables (Option.some.inj altered ▸ rfl), sameRows rows⟩
  | setDefault table column defaultValue =>
      obtain ⟨-, altered⟩ := Option.ite_none_right_eq_some.mp altered
      refine ⟨Option.some.inj altered ▸ modifyColumns_tables fun columns => ?_, sameRows rows⟩
      exact signature_starts_map fun col => by split <;> exact ⟨rfl, rfl⟩
  | addPrimaryKey table name column =>
      obtain ⟨-, altered⟩ := Option.ite_none_right_eq_some.mp altered
      refine ⟨Option.some.inj altered ▸ modifyColumns_tables fun columns => ?_, sameRows rows⟩
      exact signature_starts_map fun col => by split <;> exact ⟨rfl, rfl⟩
  | addColumn table column type notNull =>
      obtain ⟨-, altered⟩ := Option.ite_none_right_eq_some.mp altered
      refine ⟨Option.some.inj altered ▸ modifyColumns_tables fun columns => ?_, fun t member => ?_⟩
      · simp [signature]
      · rw [rows]
        simp only [Statement.rows]
        split
        · refine List.forall₂_map_right_iff.mpr (List.forall₂_same.mpr fun row _ => ?_)
          exact List.prefix_append _ _
        · exact forall₂_prefix_refl _
  | dropTable => exact absurd additive id
  | dropConstraint => exact absurd additive id
  | dropColumn => exact absurd additive id
  | unparsed => exact absurd additive id

/-- Statements that add keep every row and every value of it. -/
theorem execStatements_grows {statements : List Statement}
    (additive : ∀ statement ∈ statements, statement.Additive)
    (ran : execStatements statements db = some after) : Grows db after := by
  induction statements generalizing db with
  | nil =>
      cases ran
      exact .refl _
  | cons statement statements ih =>
      obtain ⟨next, first, rest⟩ := Option.bind_eq_some_iff.mp ran
      exact (exec_grows (additive statement List.mem_cons_self) first).trans
        (ih (fun other member => additive other (List.mem_cons_of_mem _ member)) rest)

end Grows

/-- Taking away the cell after the old ones leaves these and what follows. -/
theorem eraseIdx_of_width {row : Row} {width : ℕ} (wide : row.length = width)
    (cell : Option Value) (rest : Row) : (row ++ cell :: rest).eraseIdx width = row ++ rest := by
  rw [← wide, List.eraseIdx_append_of_length_le (Nat.le_refl _), Nat.sub_self, List.eraseIdx_zero,
    List.tail_cons]

end DawnPatrol.Foundation.Schemas

import DawnPatrol.Foundation.Schemas

/-!
# What statements leave alone

A statement that names another table, or none, leaves the columns and the rows
of a table alone (`exec_leavesAlone`), and so does a script of such statements,
also one that fails and is undone (`runScript_leavesAlone`).

The catalog after statements that succeed is that of the catalog alone
(`execStatements_catalog`), and statements that demand nothing of the rows
succeed as soon as the catalog accepts them (`execStatements_of_undemanding`).
-/

set_option autoImplicit false

namespace DawnPatrol.Foundation.Schemas

/-- A statement does not change the columns or the rows of a table. -/
def Statement.LeavesAlone (table : String) : Statement → Prop
  | createTable name _ | setDefault name _ _ | addPrimaryKey name _ _ | addColumn name _ _ _
  | dropTable name | dropColumn name _ => name ≠ table
  | _ => True

instance (table : String) : (statement : Statement) → Decidable (statement.LeavesAlone table)
  | .createTable _ _ | .setDefault _ _ _ | .addPrimaryKey _ _ _ | .addColumn _ _ _ _
  | .dropTable _ | .dropColumn _ _ => inferInstanceAs (Decidable (_ ≠ _))
  | .createIndex _ _ _ | .createSequence _ | .setOwner _ _ _ | .addForeignKey _ _ _ _ _
  | .dropConstraint _ _ | .unparsed _ => instDecidableTrue

/-- A command does not change the columns or the rows of a table. -/
def Command.LeavesAlone (table : String) : Command → Prop
  | .statement change => change.LeavesAlone table
  | _ => True

instance (table : String) : (command : Command) → Decidable (command.LeavesAlone table)
  | .statement change => inferInstanceAs (Decidable (change.LeavesAlone table))
  | .begin | .commit => instDecidableTrue

/-- Two databases have the same columns and rows of a table. -/
structure SameTable (table : String) (first second : Database) : Prop where
  columns : second.catalog.columns table = first.catalog.columns table
  rows : second.rows table = first.rows table

section SameTable

variable {table : String} {db after : Database} {statement : Statement}

theorem SameTable.refl (table : String) (db : Database) : SameTable table db db := ⟨rfl, rfl⟩

theorem SameTable.trans {last : Database} (first : SameTable table db after)
    (second : SameTable table after last) : SameTable table db last :=
  ⟨second.columns.trans first.columns, second.rows.trans first.rows⟩

/-- The columns of a table are those of the first table with the name. -/
theorem columns_of_find {first second : Catalog}
    (same : second.tables.find? (fun t => t.name = table) =
      first.tables.find? (fun t => t.name = table)) :
    second.columns table = first.columns table := by
  rw [Catalog.columns, Catalog.columns, same]

/-- The columns of another table are not those that are modified. -/
theorem modifyColumns_columns (c : Catalog) {name : String} (other : name ≠ table)
    (change : List Column → List Column) :
    (c.modifyColumns name change).columns table = c.columns table := by
  have names : (fun t : Table => decide (t.name = table)) ∘ (fun t : Table =>
      if t.name = name then { t with columns := change t.columns } else t) =
        fun t : Table => decide (t.name = table) := by
    funext t
    simp only [Function.comp_apply]
    split <;> rfl
  simp only [Catalog.columns, Catalog.modifyColumns, List.find?_map, names]
  cases found : c.tables.find? (fun t => decide (t.name = table)) with
  | none => rfl
  | some t =>
      have named : t.name = table := by simpa using List.find?_some found
      simp [named, Ne.symm other]

/-- **A statement that does not name a table** leaves its columns and rows alone. -/
theorem exec_leavesAlone (elsewhere : statement.LeavesAlone table)
    (ran : statement.exec db = some after) : SameTable table db after := by
  obtain ⟨altered, -, rows, -⟩ := Statement.exec_eq_some.mp ran
  have sameTables : after.catalog.tables = db.catalog.tables →
      after.catalog.columns table = db.catalog.columns table :=
    fun same => columns_of_find (same ▸ rfl)
  cases statement with
  | createTable name columns =>
      obtain ⟨-, altered⟩ := Option.ite_none_right_eq_some.mp altered
      refine ⟨columns_of_find ?_, ?_⟩
      · rw [← Option.some.inj altered, List.find?_append]
        simp [show name ≠ table from elsewhere]
      · rw [rows]
        exact if_neg (Ne.symm elsewhere)
  | createIndex unique name column =>
      obtain ⟨-, altered⟩ := Option.ite_none_right_eq_some.mp altered
      exact ⟨sameTables (Option.some.inj altered ▸ rfl), congrFun rows table⟩
  | createSequence name =>
      obtain ⟨-, altered⟩ := Option.ite_none_right_eq_some.mp altered
      exact ⟨sameTables (Option.some.inj altered ▸ rfl), congrFun rows table⟩
  | setOwner sequence name column =>
      obtain ⟨-, altered⟩ := Option.ite_none_right_eq_some.mp altered
      exact ⟨sameTables (Option.some.inj altered ▸ rfl), congrFun rows table⟩
  | setDefault name column defaultValue =>
      obtain ⟨-, altered⟩ := Option.ite_none_right_eq_some.mp altered
      exact ⟨Option.some.inj altered ▸ modifyColumns_columns _ elsewhere _, congrFun rows table⟩
  | addPrimaryKey name key column =>
      obtain ⟨-, altered⟩ := Option.ite_none_right_eq_some.mp altered
      exact ⟨Option.some.inj altered ▸ modifyColumns_columns _ elsewhere _, congrFun rows table⟩
  | addForeignKey name key column refTable refColumn =>
      obtain ⟨-, altered⟩ := Option.ite_none_right_eq_some.mp altered
      exact ⟨sameTables (Option.some.inj altered ▸ rfl), congrFun rows table⟩
  | addColumn name column type notNull =>
      obtain ⟨-, altered⟩ := Option.ite_none_right_eq_some.mp altered
      refine ⟨Option.some.inj altered ▸ modifyColumns_columns _ elsewhere _, ?_⟩
      rw [rows]
      exact if_neg (Ne.symm elsewhere)
  | dropTable name =>
      obtain ⟨-, altered⟩ := Option.ite_none_right_eq_some.mp altered
      refine ⟨columns_of_find ?_, ?_⟩
      · rw [← Option.some.inj altered, List.find?_filter]
        refine congrArg (fun test => db.catalog.tables.find? test) (funext fun t => ?_)
        by_cases named : t.name = table
        · simp [named, Ne.symm elsewhere]
        · simp [named]
      · rw [rows]
        exact if_neg (Ne.symm elsewhere)
  | dropConstraint name key =>
      obtain ⟨-, altered⟩ := Option.ite_none_right_eq_some.mp altered
      exact ⟨sameTables (Option.some.inj altered ▸ rfl), congrFun rows table⟩
  | dropColumn name column =>
      obtain ⟨-, altered⟩ := Option.ite_none_right_eq_some.mp altered
      refine ⟨Option.some.inj altered ▸ modifyColumns_columns _ elsewhere _, ?_⟩
      rw [rows]
      exact if_neg (Ne.symm elsewhere)
  | unparsed text => cases altered

/-- A session leaves a table alone from where it began, or from where the block
that is open began. -/
theorem session_leavesAlone {commands : List Command}
    (elsewhere : ∀ command ∈ commands, command.LeavesAlone table) {s : Session}
    (current : SameTable table db s.db) (saved : ∀ start ∈ s.saved, SameTable table db start) :
    SameTable table db (session commands s).2 := by
  have undone : ∀ {s : Session}, SameTable table db s.db →
      (∀ start ∈ s.saved, SameTable table db start) →
        SameTable table db (s.saved.getD s.db) := by
    rintro ⟨here, _ | start⟩ current saved
    · exact current
    · exact saved start rfl
  induction commands generalizing s with
  | nil => exact undone current saved
  | cons command commands ih =>
      have rest := fun other member => elsewhere other (List.mem_cons_of_mem _ member)
      cases command with
      | begin =>
          refine ih rest current fun start same => ?_
          cases same
          exact undone current saved
      | commit => exact ih rest current fun start impossible => by cases impossible
      | statement statement =>
          have here : statement.LeavesAlone table := elsewhere _ List.mem_cons_self
          simp only [session]
          cases ran : statement.exec s.db with
          | some after => exact ih rest (current.trans (exec_leavesAlone here ran)) saved
          | none => exact undone current saved

/-- **A script that does not name a table** leaves its columns and rows alone,
whether it fails or not. -/
theorem runScript_leavesAlone {commands : List Command}
    (elsewhere : ∀ command ∈ commands, command.LeavesAlone table) (db : Database) :
    SameTable table db (runScript commands db).2 :=
  session_leavesAlone elsewhere (.refl table db) fun _ impossible => by cases impossible

end SameTable

/-! ## The catalog alone -/

section Catalog

variable {db after : Database} {statements : List Statement}

/-- The catalog of a database changes as the catalog alone does. -/
theorem execStatements_catalog (ran : execStatements statements db = some after) :
    alterAll statements db.catalog = some after.catalog := by
  induction statements generalizing db with
  | nil =>
      cases ran
      rfl
  | cons statement statements ih =>
      obtain ⟨next, first, rest⟩ := Option.bind_eq_some_iff.mp ran
      obtain ⟨altered, -⟩ := Statement.exec_eq_some.mp first
      exact Option.bind_eq_some_iff.mpr ⟨next.catalog, altered, ih rest⟩

/-- Statements that demand nothing of the rows succeed when the catalog accepts
them. -/
theorem execStatements_of_undemanding
    (undemanding : ∀ statement ∈ statements, ∀ db, statement.Admits db) {c : Catalog}
    (altered : alterAll statements db.catalog = some c) :
    ∃ after, execStatements statements db = some after ∧ after.catalog = c := by
  induction statements generalizing db with
  | nil =>
      cases altered
      exact ⟨db, rfl, rfl⟩
  | cons statement statements ih =>
      obtain ⟨changed, first, rest⟩ := Option.bind_eq_some_iff.mp altered
      have ran : statement.exec db =
          some ⟨changed, statement.rows db, statement.next db⟩ := by
        rw [Statement.exec, first]
        exact if_pos (undemanding statement List.mem_cons_self db)
      obtain ⟨after, later, same⟩ :=
        @ih ⟨changed, statement.rows db, statement.next db⟩
          (fun other member => undemanding other (List.mem_cons_of_mem _ member)) rest
      exact ⟨after, Option.bind_eq_some_iff.mpr ⟨_, ran, later⟩, same⟩

end Catalog

end DawnPatrol.Foundation.Schemas

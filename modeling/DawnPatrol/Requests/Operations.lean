import DawnPatrol.Postgres.Seed
import DawnPatrol.RailsDb.RacingAssociations

/-!
# The stores that operations reach

The operations of the association service, copies, and the statements of the
seed, in any order and in any interleaving of their calls, starting from a new
database. Any call may fail, and the Rails databases may change at any time.

No stored association has the id zero, which a record has that is not stored
(`Reached.idsSet`). Create gives such a record an id of the sequence, and
inserts any other under its own id.
-/

set_option autoImplicit false

namespace DawnPatrol.Requests

open Foundation Go Api Postgres Execution Db Rails RailsDb

/-- An operation on associations. -/
inductive Operation where
  | create (association : Association)
  | createDefault
  | default
  | defaultOrCreateDefault
  | firstByHost (host : String)
  | firstOrCreate (association : Association)
  | copy (acronym : String)

/-- What an operation runs. Its answer goes to the caller. -/
def Operation.program (env : Environment) : Operation → GoM Unit
  | create association => (associationService.create association).bind fun _ => .ret ()
  | createDefault => associationService.createDefault.bind fun _ => .ret ()
  | default => associationService.default.bind fun _ => .ret ()
  | defaultOrCreateDefault => associationService.defaultOrCreateDefault.bind fun _ => .ret ()
  | firstByHost host => (associationService.firstByHost host).bind fun _ => .ret ()
  | firstOrCreate association =>
      (associationService.firstOrCreate association).bind fun _ => .ret ()
  | copy acronym => (copyRequest env acronym).bind fun _ => .ret ()

/-- What may happen to the world beside the operations: a statement of the seed,
or a change of the Rails databases. -/
inductive Outside (before : World) : World → Prop where
  | seed (statement : SeedStatement) (listed : statement ∈ seedSql) :
      Outside before { before with store := (statement.exec before.store).2 }
  | rails (rails : String → RailsDatabase) : Outside before { before with rails := rails }

/-- The rules of runs of operations. -/
def operationRules (env : Environment) :
    Rules Call Call.Answer PanicValue Unit World Operation where
  exec _ := Answers env
  starts _ operation program := program = operation.program env
  outside := Outside

/-- A world that operations lead to from a new database. -/
def Reached (env : Environment) (w : World) : Prop :=
  ∃ (origin : World) (actions : List (Action Call Operation))
    (threads : List (Operation × GoM Unit)), origin.store = .empty ∧
      Pool.Run (operationRules env) ⟨origin, []⟩ actions ⟨w, threads⟩

/-! ## No stored id is blank -/

/-- No stored association has the id of a record that is not stored. -/
def IdsSet (st : Store) : Prop := 0 ∉ st.associations.map AssociationRow.id

section IdsSet

variable {st : Store}

theorem IdsSet.addAssociation {row : AssociationRow} (ids : IdsSet st) (known : row.id ≠ 0)
    (fresh : Store.Fresh row st.associations) : IdsSet (st.addAssociation row fresh) := by
  simp only [IdsSet, Store.addAssociation_associations, List.map_append, List.mem_append,
    List.map_cons, List.map_nil, List.mem_singleton, not_or]
  exact ⟨ids, known.symm⟩

/-- A record is created under an id that is set. -/
theorem IdsSet.gormCreate (ids : IdsSet st) (a : Association) :
    IdsSet (Gorm.createAssociation st a).2 := by
  have pos := st.associationsIDSeq_pos
  have known : (if a.id = 0 then st.associationsIDSeq else a.id) ≠ 0 := by
    split
    · omega
    · assumption
  have drawn : IdsSet (if a.id = 0 then st.drawAssociationID else st) := by
    split
    · exact ids
    · exact ids
  simp only [Gorm.createAssociation]
  split
  · rename_i stored inserted
    obtain ⟨fresh, rfl⟩ := Store.insertAssociation_eq_ok.mp inserted
    exact drawn.addAssociation known fresh
  · exact drawn

/-- A record is saved under an id that is set. -/
theorem IdsSet.gormSave (ids : IdsSet st) (a : Association) :
    IdsSet (Gorm.saveAssociation st a).2 := by
  simp only [Gorm.saveAssociation]
  split
  · exact ids.gormCreate a
  · split
    · split
      · rename_i stored updated
        simp only [Store.updateAssociation] at updated
        split at updated
        · cases updated
        · cases updated
          simp only [IdsSet, Store.replaceAssociation, map_key_replaceBy]
          exact ids
      · exact ids
    · exact ids.gormCreate a

theorem IdsSet.saveBefore (ids : IdsSet st) (e : Api.Event) :
    IdsSet (Gorm.saveBeforeAssociations st e).2 := by
  have saved := ids.gormSave e.association
  simp only [Gorm.saveBeforeAssociations]
  split
  · exact ids
  · split <;> simp_all

theorem IdsSet.createAssociation (ids : IdsSet st) (fault : Fault) (a : Association) :
    IdsSet (createAssociation fault a st).2 := by
  rcases fault with _ | ⟨err, _ | progress⟩
  · exact ids.gormCreate a
  · exact ids
  · simp only [Execution.createAssociation]
    split
    · exact ids
    · exact ids

theorem IdsSet.createEvent (ids : IdsSet st) (fault : Fault) (e : Api.Event) :
    IdsSet (createEvent fault e st).2 := by
  rcases fault with _ | ⟨err, _ | _ | progress⟩
  · have saved := ids.saveBefore e
    simp only [Execution.createEvent, Gorm.createEvent]
    split
    · exact ids
    · rename_i owner after ran
      rw [ran] at saved
      split
      · rename_i stored inserted
        obtain ⟨fresh, owned, rfl⟩ := Store.insertEvent_eq_ok.mp inserted
        simp only [IdsSet, Store.addEvent_associations]
        split
        · exact saved
        · exact saved
      · exact ids
  · exact ids
  · exact ids
  · exact ids

/-- No answer stores a blank id. -/
theorem IdsSet.answer {w : World} (ids : IdsSet w.store) (env : Environment) (fault : Fault)
    (call : Call) : IdsSet (answer env fault call w).2.store := by
  cases call with
  | openConn => cases fault <;> exact ids
  | loadLocation => cases fault <;> exact ids
  | createAssociation a => exact ids.createAssociation fault a
  | createEvent e => exact ids.createEvent fault e
  | _ => exact ids

/-- No statement of the seed stores a blank id. -/
theorem IdsSet.seed (ids : IdsSet st) (statement : SeedStatement) :
    IdsSet (statement.exec st).2 := by
  cases statement with
  | deleteEvents => exact ids
  | deleteAssociations =>
      simp only [SeedStatement.exec, Store.deleteAssociations]
      by_cases unowned : st.events = []
      · simp [unowned, IdsSet]
      · simpa [unowned] using ids
  | insertAssociation =>
      simp only [SeedStatement.exec]
      split
      · rename_i next inserted
        obtain ⟨fresh, rfl⟩ := Store.insertAssociation_eq_ok.mp inserted
        exact ids.addAssociation (by decide) fresh
      · exact ids
  | insertEvent name startsAt =>
      simp only [SeedStatement.exec]
      split
      · rename_i next inserted
        obtain ⟨fresh, owned, rfl⟩ := Store.insertEvent_eq_ok.mp inserted
        exact ids
      · exact ids

end IdsSet

/-- **The ids of a reached store are set.** -/
theorem Reached.idsSet {env : Environment} {w : World} (reached : Reached env w) :
    IdsSet w.store := by
  obtain ⟨origin, actions, threads, new, run⟩ := reached
  refine run.preserves (fun world => IdsSet world.store) ?_ ?_ (by simp [new, IdsSet, Store.empty])
  · rintro operation world call given after ⟨fault, answered⟩ ids
    have kept := ids.answer env fault call
    rw [answered] at kept
    exact kept
  · rintro before after changed ids
    cases changed with
    | seed statement => exact ids.seed statement
    | rails => exact ids

/-! ## Two reached stores -/

/-- The store of a new database is reached. -/
theorem reached_empty (env : Environment) {w : World} (new : w.store = .empty) : Reached env w :=
  ⟨w, [], [], new, .refl _⟩

/-- Statements of the seed that are run in order are steps of a run. -/
theorem run_execAll (env : Environment) (w : World) (threads : List (Operation × GoM Unit))
    {statements : List SeedStatement} (listed : ∀ statement ∈ statements, statement ∈ seedSql) :
    ∃ actions, Pool.Run (operationRules env) ⟨w, threads⟩ actions
      ⟨{ w with store := execAll statements w.store }, threads⟩ := by
  induction statements generalizing w with
  | nil => exact ⟨[], .refl _⟩
  | cons statement statements ih =>
      have one : Pool.Step (operationRules env) ⟨w, threads⟩ .outside
          ⟨{ w with store := (statement.exec w.store).2 }, threads⟩ :=
        .outside (.seed statement (listed statement (by simp)))
      obtain ⟨actions, rest⟩ := ih { w with store := (statement.exec w.store).2 }
        fun other member => listed other (by simp [member])
      simp only [execAll]
      rcases executed : statement.exec w.store with ⟨_ | _, next⟩
      · rw [executed] at one
        exact ⟨_, .step one (.refl _)⟩
      · rw [executed] at one rest
        exact ⟨_, .step one rest⟩

/-- The seeded store is reached. -/
theorem reached_seeded (env : Environment) {w : World} (seeded : w.store = .seeded) :
    Reached env w := by
  obtain ⟨actions, run⟩ := run_execAll env { w with store := .empty } [] fun _ member => member
  rw [execAll_seed, ← seeded] at run
  exact ⟨{ w with store := .empty }, actions, [], rfl, run⟩

end DawnPatrol.Requests

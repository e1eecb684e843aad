import DawnPatrol.Db.AssociationService

/-!
# Concurrent calls of `FirstOrCreate`

Several callers run `FirstOrCreate` on one store, in any interleaving of their
lookups and inserts. Where a caller stands is a `Stage`, and a step of the pool
advances the stage of one caller (`Step.advances`), so the invariants below
are about stages.

When the first two steps are the lookup and the insert of one caller, the row is stored
before anyone else looks, and all callers answer its id (`Settled`). When two
callers have looked before either inserts, one of them is refused by the
unique index and ends with the blank id (`Disputed`). So the callers agree
exactly in the first case (`callers_agree_iff`).
-/

set_option autoImplicit false

namespace DawnPatrol.Db

open Foundation Go Api Postgres Execution

namespace ConcurrentFirstOrCreate

/-! ## The stages of a caller -/

/-- Where a call of `FirstOrCreate` stands. -/
inductive Stage where
  | lookingUp (association : Association)
  | inserting (association : Association)
  | returned (association : Association)
  deriving DecidableEq

/-- What a caller has left to run. -/
def Stage.program : Stage → GoM Association
  | lookingUp association => AssociationService.firstOrCreate association
  | inserting association => AssociationService.create association
  | returned association => .ret association

/-- The next statement of a caller. -/
def Stage.statement : Stage → Option Call
  | lookingUp association =>
      some (.firstAssociation (.fields { acronym := association.acronym }) association)
  | inserting association => some (.createAssociation association)
  | returned _ => none

/-- The stage of a caller and the store after its next statement. -/
def Stage.advance (env : Environment) : Stage → Store → Stage × Store
  | lookingUp association, st =>
      let found := lookUp env .none association st
      (if found.id = 0 then inserting found else returned found, st)
  | inserting association, st =>
      let created := Gorm.createAssociation st association
      (returned created.1.1, created.2)
  | returned association, st => (returned association, st)

/-- The statements of the callers succeed or are refused by an index. Nobody
joins, and nobody else changes the store. -/
def callerRules (env : Environment) :
    Rules Call Call.Answer PanicValue Association World ℕ where
  exec _ world call given after := answer env .none call world = (given, after)
  starts _ _ _ := False
  outside _ _ := False

/-- Callers by number, each with the stage it has reached. -/
abbrev Callers := List (ℕ × Stage)

/-- The threads of the callers. -/
def threads (callers : Callers) : List (ℕ × GoM Association) :=
  callers.map fun caller => (caller.1, caller.2.program)

/-- The callers before their first statement. -/
def callersOf (associations : List Association) : Callers :=
  associations.zipIdx.map fun numbered => (numbered.2, .lookingUp numbered.1)

/-- The pool in which the callers have reached their stages. -/
def poolOf (world : World) (callers : Callers) :
    Pool Call Call.Answer PanicValue Association World ℕ :=
  ⟨world, threads callers⟩

/-- A caller with a statement left makes it, and then has the program of the
next stage. -/
theorem Stage.program_of_statement {stage : Stage} {call : Call}
    (next : stage.statement = some call) :
    ∃ rest, stage.program = .call call rest ∧ ∀ (env : Environment) (world : World),
      rest (answer env .none call world).1 = (stage.advance env world.store).1.program ∧
        (answer env .none call world).2 =
          { world with store := (stage.advance env world.store).2 } := by
  cases stage with
  | returned association => cases next
  | lookingUp association =>
      cases next
      refine ⟨_, rfl, fun env world => ⟨?_, rfl⟩⟩
      change (if (lookUp env .none association world.store).id = 0 then _ else _) = _
      simp only [Stage.advance]
      split <;> rfl
  | inserting association =>
      cases next
      exact ⟨_, rfl, fun _ _ => ⟨rfl, rfl⟩⟩

/-- **A caller with a statement left** can go next, and advances. -/
theorem step_of_statement (env : Environment) (world : World) (front back : Callers)
    (label : ℕ) (stage : Stage) {call : Call} (next : stage.statement = some call) :
    Pool.Step (callerRules env) (poolOf world (front ++ (label, stage) :: back))
      (.called label call)
      (poolOf { world with store := (stage.advance env world.store).2 }
        (front ++ (label, (stage.advance env world.store).1) :: back)) := by
  obtain ⟨rest, starts, continues⟩ := Stage.program_of_statement next
  have answered : (callerRules env).exec label world call (answer env .none call world).1
      { world with store := (stage.advance env world.store).2 } :=
    Prod.ext rfl (continues env world).2
  have step := @Pool.Step.call _ _ _ _ _ _ (callerRules env) _ _ (threads front)
    (threads back) label call rest _ answered
  rw [(continues env world).1] at step
  simpa only [poolOf, threads, List.map_append, List.map_cons, starts] using step

/-- **A step of the pool advances one caller.** -/
theorem Step.advances {env : Environment} {world : World} {callers : Callers}
    {action : Action Call ℕ} {next : Pool Call Call.Answer PanicValue Association World ℕ}
    (step : Pool.Step (callerRules env) (poolOf world callers) action next) :
    ∃ front back label stage call, callers = front ++ (label, stage) :: back ∧
      stage.statement = some call ∧ action = .called label call ∧
      next = poolOf { world with store := (stage.advance env world.store).2 }
        (front ++ (label, (stage.advance env world.store).1) :: back) := by
  generalize same : poolOf world callers = pool at step
  cases step with
  | start allowed => exact allowed.elim
  | outside changed => exact changed.elim
  | call answered =>
      rename_i before after front back label op rest answer
      obtain ⟨rfl, split⟩ := Pool.mk.inj same
      obtain ⟨front, tail, rfl, rfl, tailSplit⟩ := List.map_eq_append_iff.mp split
      obtain ⟨⟨number, stage⟩, back, rfl, head, rfl⟩ := List.map_eq_cons_iff.mp tailSplit
      obtain ⟨rfl, calls⟩ := Prod.mk.inj head
      cases next : stage.statement with
      | none =>
          cases stage with
          | returned => cases calls
          | _ => cases next
      | some call =>
          obtain ⟨continuation, starts, continues⟩ := Stage.program_of_statement next
          cases starts.symm.trans calls
          have answered : Execution.answer env .none op world = (answer, after) := answered
          obtain ⟨stages, stores⟩ := continues env world
          rw [answered] at stages stores
          have left : after = { world with store := (stage.advance env world.store).2 } := stores
          refine ⟨front, back, number, stage, op, rfl, next, rfl, ?_⟩
          simp only [poolOf, threads, List.map_append, List.map_cons, stages, left]

/-- The other callers stay where they are. -/
theorem mem_of_other_advances {front back : Callers} {mover advanced other : ℕ × Stage}
    (member : other ∈ front ++ mover :: back) (ne : other ≠ mover) :
    other ∈ front ++ advanced :: back := by
  simp only [List.mem_append, List.mem_cons] at member ⊢
  rcases member with before | same | behind
  · exact .inl before
  · exact absurd same ne
  · exact .inr (.inr behind)

/-- An invariant of stages and stores that every advance keeps holds at the end
of every run. -/
theorem Run.keeps {env : Environment} (invariant : Callers → Store → Prop)
    (kept : ∀ front back label stage call st, stage.statement = some call →
      invariant (front ++ (label, stage) :: back) st →
        invariant (front ++ (label, (stage.advance env st).1) :: back) (stage.advance env st).2)
    {world : World} {callers : Callers} {actions : List (Action Call ℕ)}
    {last : Pool Call Call.Answer PanicValue Association World ℕ}
    (run : Pool.Run (callerRules env) (poolOf world callers) actions last)
    (begins : invariant callers world.store) :
    ∃ world callers, last = poolOf world callers ∧ invariant callers world.store := by
  generalize same : poolOf world callers = pool at run
  induction run generalizing world callers with
  | refl => exact ⟨world, callers, same.symm, begins⟩
  | step one _ ih =>
      subst same
      obtain ⟨front, back, label, stage, call, rfl, next, -, reached⟩ := Step.advances one
      exact ih (kept front back label stage call world.store next begins) reached.symm

/-! ## What the callers ask for -/

/-- A caller asks for a new association with the acronym. -/
structure Asks (acronym : String) (association : Association) : Prop where
  acronym : association.acronym = acronym
  blank : association.id = 0

/-- No call has statements left. -/
def Finished (pool : Pool Call Call.Answer PanicValue Association World ℕ) : Prop :=
  ∀ thread ∈ pool.threads, ¬ thread.2.Live

/-- Exactly one row has the acronym, and every caller returned its id, which is
not blank. -/
def Agree (acronym : String)
    (pool : Pool Call Call.Answer PanicValue Association World ℕ) : Prop :=
  ∃ row, pool.world.store.associations.filter (fun stored => stored.acronym == acronym) = [row] ∧
    row.id ≠ 0 ∧ ∀ thread ∈ pool.threads,
      ∃ association, thread.2 = .ret association ∧ association.id = row.id

/-- The callers have finished when each has returned. -/
theorem finished_iff {world : World} {callers : Callers} :
    Finished (poolOf world callers) ↔
      ∀ caller ∈ callers, ∃ association, caller.2 = .returned association := by
  constructor
  · intro finished caller member
    have still := finished _ (List.mem_map_of_mem member)
    cases stage : caller.2 with
    | returned association => exact ⟨association, rfl⟩
    | _ =>
        rw [stage] at still
        exact absurd trivial still
  · intro returned thread member
    obtain ⟨caller, inCallers, rfl⟩ := List.mem_map.mp member
    obtain ⟨association, stage⟩ := returned caller inCallers
    simp only [stage, Stage.program]
    exact id

section Advances

variable (env : Environment) {acronym : String} {association : Association} {st : Store}

/-- A lookup before the acronym is stored finds nothing. -/
theorem advance_of_missing (named : acronym ≠ "") (asks : Asks acronym association)
    (missing : acronym ∉ st.associations.map AssociationRow.acronym) :
    (Stage.lookingUp association).advance env st = (.inserting association, st) := by
  obtain ⟨rfl, blank⟩ := asks
  have found : lookUp env .none association st = association := by
    simp [lookUp, firstAssociation_eq_none named missing, Fault.scannedOne]
  simp only [Stage.advance, found, blank, ↓reduceIte]

/-- A lookup of a stored acronym returns the id of its row. -/
theorem advance_of_stored (named : acronym ≠ "") (asks : Asks acronym association)
    {row : AssociationRow} (stored : row ∈ st.associations) (same : row.acronym = acronym)
    (numbered : row.id ≠ 0) :
    ∃ found, (Stage.lookingUp association).advance env st = (.returned found, st) ∧
      found.id = row.id := by
  obtain ⟨rfl, blank⟩ := asks
  have found : lookUp env .none association st =
      Gorm.scanAssociation env.sessionOffset association row := by
    simp [lookUp, firstAssociation_eq_some named blank stored same, Fault.scannedOne]
  have scanned : (Gorm.scanAssociation env.sessionOffset association row).id = row.id := rfl
  exact ⟨_, by simp only [Stage.advance, found, scanned, numbered, ↓reduceIte], scanned⟩

/-- An insert of new values stores its row under the next id. -/
theorem advance_of_fresh (blank : association.id = 0)
    (fresh : Store.Fresh (Gorm.associationRow association st.associationsIDSeq)
      st.drawAssociationID.associations) :
    (Stage.inserting association).advance env st =
      (.returned { association with id := st.associationsIDSeq },
        st.drawAssociationID.addAssociation
          (Gorm.associationRow association st.associationsIDSeq) fresh) := by
  have accepted := Store.insertAssociation_of_fresh fresh
  simp only [Stage.advance, Gorm.createAssociation, blank, ↓reduceIte, accepted]

/-- After an insert the acronym is stored, or the caller ends with the blank id. -/
theorem advance_of_insert (st : Store) (asks : Asks acronym association) :
    ∃ ended, ((Stage.inserting association).advance env st).1 = .returned ended ∧
      (ended.id = 0 ∨ acronym ∈
        ((Stage.inserting association).advance env st).2.associations.map
          AssociationRow.acronym) := by
  obtain ⟨rfl, blank⟩ := asks
  refine ⟨_, rfl, ?_⟩
  simp only [Stage.advance, Gorm.createAssociation, blank, ↓reduceIte]
  split
  · rename_i next inserted
    obtain ⟨fresh, rfl⟩ := Store.insertAssociation_eq_ok.mp inserted
    right
    simp [Gorm.associationRow]
  · exact .inl blank

/-- An insert of a stored acronym is refused, and the caller ends with the blank
id. -/
theorem advance_of_refused (asks : Asks acronym association)
    (stored : acronym ∈ st.associations.map AssociationRow.acronym) :
    ((Stage.inserting association).advance env st).1 = .returned association := by
  obtain ⟨rfl, -⟩ := asks
  exact congrArg Stage.returned (@createAssociation_of_stored .none association st stored).1

/-- Stored acronyms stay stored. -/
theorem stored_of_advance (stage : Stage)
    (stored : acronym ∈ st.associations.map AssociationRow.acronym) :
    acronym ∈ (stage.advance env st).2.associations.map AssociationRow.acronym := by
  cases stage with
  | lookingUp => exact stored
  | returned => exact stored
  | inserting association =>
      simp only [Stage.advance, Gorm.createAssociation]
      have drawn : acronym ∈
          (if association.id = 0 then st.drawAssociationID else st).associations.map
            AssociationRow.acronym := by
        split <;> exact stored
      split
      · rename_i next inserted
        obtain ⟨fresh, rfl⟩ := Store.insertAssociation_eq_ok.mp inserted
        rw [Store.addAssociation_associations, List.map_append]
        exact List.mem_append_left _ drawn
      · exact drawn

end Advances

/-! ## Stored before anyone else looks -/

/-- The row is stored, and every caller has still to look it up or returned its
id. -/
structure Settled (acronym : String) (row : AssociationRow) (callers : Callers) (st : Store) :
    Prop where
  stored : row ∈ st.associations
  named : row.acronym = acronym
  numbered : row.id ≠ 0
  stages : ∀ caller ∈ callers,
    (∃ association, caller.2 = .lookingUp association ∧ Asks acronym association) ∨
      ∃ association, caller.2 = .returned association ∧ association.id = row.id

theorem Settled.advance {env : Environment} {acronym : String} (named : acronym ≠ "")
    {row : AssociationRow} {front back : Callers} {label : ℕ} {stage : Stage} {call : Call}
    {st : Store} (next : stage.statement = some call)
    (settled : Settled acronym row (front ++ (label, stage) :: back) st) :
    Settled acronym row (front ++ (label, (stage.advance env st).1) :: back)
      (stage.advance env st).2 := by
  obtain ⟨stored, same, numbered, stages⟩ := settled
  rcases stages (label, stage) (by simp) with ⟨association, rfl, asks⟩ | ⟨association, rfl, -⟩
  · obtain ⟨found, advanced, foundID⟩ := advance_of_stored env named asks stored same
      numbered
    rw [advanced]
    refine ⟨stored, same, numbered, fun caller member => ?_⟩
    simp only [List.mem_append, List.mem_cons] at member
    rcases member with before | rfl | behind
    · exact stages caller (by simp [before])
    · exact .inr ⟨found, rfl, foundID⟩
    · exact stages caller (by simp [behind])
  · cases next

/-- Settled callers that have finished agree. -/
theorem Settled.agree {acronym : String} {row : AssociationRow} {callers : Callers}
    {world : World} (settled : Settled acronym row callers world.store)
    (finished : Finished (poolOf world callers)) : Agree acronym (poolOf world callers) := by
  have only : ∀ stored ∈ world.store.associations,
      (stored.acronym == acronym) = decide (stored = row) := by
    intro stored member
    by_cases same : stored = row
    · simp [same, settled.named]
    · have other : stored.acronym ≠ acronym := fun equal =>
        same (List.inj_on_of_nodup_map world.store.associationsAcronymIdx member settled.stored
          (equal.trans settled.named.symm))
      simp [same, other]
  refine ⟨row, ?_, settled.numbered, ?_⟩
  · have rows := List.Nodup.of_map _ world.store.associationsAcronymIdx
    change world.store.associations.filter _ = [row]
    rw [List.filter_congr only, List.filter_eq, List.count_eq_one_of_mem rows settled.stored,
      List.replicate_one]
  · intro thread member
    obtain ⟨caller, inCallers, rfl⟩ := List.mem_map.mp member
    obtain ⟨ended, stage⟩ := finished_iff.mp finished caller inCallers
    rcases settled.stages caller inCallers with ⟨association, other, -⟩ | ⟨association, same, id⟩
    · cases other.symm.trans stage
    · exact ⟨association, by simp only [same, Stage.program], id⟩

/-! ## Looked up by two before either inserts -/

/-- Some caller has ended with the blank id, or will. -/
inductive Disputed (acronym : String) (callers : Callers) (st : Store) : Prop where
  | bothInsert {first second : ℕ} {association other : Association} (ne : first ≠ second)
      (one : (first, .inserting association) ∈ callers) (asks : Asks acronym association)
      (two : (second, .inserting other) ∈ callers) (otherAsks : Asks acronym other)
  | tooLate {late : ℕ} {association : Association}
      (stored : acronym ∈ st.associations.map AssociationRow.acronym)
      (inserts : (late, .inserting association) ∈ callers) (asks : Asks acronym association)
  | refused {loser : ℕ} {association : Association}
      (returned : (loser, .returned association) ∈ callers) (blank : association.id = 0)

/-- **A dispute is never settled.** The one of the two whose insert comes second,
or comes after another's, is refused. -/
theorem Disputed.advance {env : Environment} {acronym : String} {front back : Callers} {label : ℕ}
    {stage : Stage} {call : Call} {st : Store} (next : stage.statement = some call)
    (disputed : Disputed acronym (front ++ (label, stage) :: back) st) :
    Disputed acronym (front ++ (label, (stage.advance env st).1) :: back)
      (stage.advance env st).2 := by
  cases disputed with
  | bothInsert ne one asks two otherAsks =>
      rename_i first second association other
      -- when one of the two moves, the other still has to insert
      have moves : ∀ {mover still : ℕ} {a b : Association}, mover ≠ still →
          Asks acronym a → Asks acronym b →
          (still, Stage.inserting b) ∈ front ++ (label, stage) :: back →
          (mover, Stage.inserting a) = (label, stage) →
          Disputed acronym (front ++ (label, (stage.advance env st).1) :: back)
            (stage.advance env st).2 := by
        intro mover still a b ne asks otherAsks waits same
        obtain ⟨rfl, rfl⟩ := Prod.mk.inj same
        obtain ⟨ended, returned, blank | stored⟩ := advance_of_insert env st asks
        · have ends : (mover, Stage.returned ended) ∈
              front ++ (mover, ((Stage.inserting a).advance env st).1) :: back := by
            simp [returned]
          exact .refused ends blank
        · refine .tooLate stored (mem_of_other_advances waits ?_) otherAsks
          exact fun equal => ne (congrArg Prod.fst equal).symm
      by_cases firstMoves : (first, Stage.inserting association) = (label, stage)
      · exact moves ne asks otherAsks two firstMoves
      · by_cases secondMoves : (second, Stage.inserting other) = (label, stage)
        · exact moves ne.symm otherAsks asks one secondMoves
        · exact .bothInsert ne (mem_of_other_advances one firstMoves) asks
            (mem_of_other_advances two secondMoves) otherAsks
  | tooLate stored inserts asks =>
      rename_i late association
      by_cases moves : (late, Stage.inserting association) = (label, stage)
      · obtain ⟨rfl, rfl⟩ := Prod.mk.inj moves
        have ends : (late, Stage.returned association) ∈
            front ++ (late, ((Stage.inserting association).advance env st).1) :: back := by
          simp [advance_of_refused env asks stored]
        exact .refused ends asks.blank
      · exact .tooLate (stored_of_advance env stage stored) (mem_of_other_advances inserts moves)
          asks
  | refused returned blank =>
      rename_i loser association
      refine .refused (mem_of_other_advances returned fun same => ?_) blank
      obtain ⟨rfl, rfl⟩ := Prod.mk.inj same
      cases next

/-- Disputing callers that have finished do not agree. -/
theorem Disputed.not_agree {acronym : String} {callers : Callers} {world : World}
    (disputed : Disputed acronym callers world.store)
    (finished : Finished (poolOf world callers)) : ¬ Agree acronym (poolOf world callers) := by
  rintro ⟨row, -, numbered, answers⟩
  cases disputed with
  | bothInsert ne one =>
      obtain ⟨_, returned⟩ := finished_iff.mp finished _ one
      cases returned
  | tooLate stored inserts =>
      obtain ⟨_, returned⟩ := finished_iff.mp finished _ inserts
      cases returned
  | refused returned blank =>
      obtain ⟨association, same, id⟩ := answers _ (List.mem_map_of_mem returned)
      cases same
      exact numbered (id.symm.trans blank)

/-! ## The first two steps decide -/

theorem mem_callersOf {associations : List Association} {caller : ℕ × Stage}
    (member : caller ∈ callersOf associations) :
    ∃ association ∈ associations, caller.2 = .lookingUp association := by
  obtain ⟨⟨association, number⟩, numbered, rfl⟩ := List.mem_map.mp member
  exact ⟨association, (List.mem_zipIdx numbered).2.2 ▸ List.getElem_mem _, rfl⟩

/-- The callers have different numbers. -/
theorem nodup_callersOf (associations : List Association) :
    ((callersOf associations).map Prod.fst).Nodup := by
  have numbers : (callersOf associations).map Prod.fst = List.range' 0 associations.length := by
    rw [callersOf, List.map_map, ← List.zipIdx_map_snd]
    rfl
  rw [numbers]
  exact List.nodup_range'

/-- A numbered caller stands at one place. -/
theorem split_eq_of_nodup {front back other behind : Callers} {label : ℕ} {stage still : Stage}
    (numbers : ((front ++ (label, stage) :: back).map Prod.fst).Nodup)
    (same : front ++ (label, stage) :: back = other ++ (label, still) :: behind) :
    stage = still ∧ ∀ caller ∈ other ++ behind, caller ∈ front ++ back := by
  have one : (label, stage) ∈ front ++ (label, stage) :: back := by simp
  have there : (label, still) ∈ front ++ (label, stage) :: back := same ▸ by simp
  have unique := List.inj_on_of_nodup_map numbers one there rfl
  obtain ⟨-, rfl⟩ := Prod.mk.inj unique
  refine ⟨rfl, fun caller member => ?_⟩
  have there : caller ∈ front ++ (label, stage) :: back := by
    rw [same]
    simp only [List.mem_append, List.mem_cons] at member ⊢
    tauto
  have differs : caller ≠ (label, stage) := by
    rintro rfl
    rw [same] at numbers
    have rows := List.Nodup.of_map _ numbers
    rw [List.nodup_middle] at rows
    exact (List.nodup_cons.mp rows).1 member
  simp only [List.mem_append, List.mem_cons] at there ⊢
  tauto

/-- The callers ask for one association, whose acronym, names, hosts and ids to
come no row holds. -/
structure AskForNew (acronym : String) (associations : List Association) (st : Store) : Prop where
  named : acronym ≠ ""
  asks : ∀ association ∈ associations, Asks acronym association
  missing : acronym ∉ st.associations.map AssociationRow.acronym
  names : ∀ association ∈ associations,
    association.name ∉ st.associations.map AssociationRow.name
  hosts : ∀ association ∈ associations,
    association.host ∉ st.associations.map AssociationRow.host
  ids : ∀ row ∈ st.associations, row.id < st.associationsIDSeq

section FirstSteps

variable {env : Environment} {acronym : String} {associations : List Association} {st : Store}
  {front back : Callers}

/-- These callers have not made a statement. -/
def Waiting (associations : List Association) (callers : Callers) : Prop :=
  ∀ caller ∈ callers, ∃ association ∈ associations, caller.2 = .lookingUp association

theorem AskForNew.fresh (new : AskForNew acronym associations st) {association : Association}
    (asking : association ∈ associations) :
    Store.Fresh (Gorm.associationRow association st.associationsIDSeq)
      st.drawAssociationID.associations := by
  refine ⟨fun taken => ?_, ?_, new.hosts association asking, new.names association asking⟩
  · obtain ⟨row, member, same⟩ := List.mem_map.mp taken
    exact absurd same (new.ids row member).ne
  · change association.acronym ∉ st.associations.map AssociationRow.acronym
    rw [(new.asks association asking).acronym]
    exact new.missing

/-- The first insert settles the matter when everyone else has still to look. -/
theorem AskForNew.settled (new : AskForNew acronym associations st) {association : Association}
    (asking : association ∈ associations) (waiting : Waiting associations (front ++ back))
    (label : ℕ) :
    Settled acronym (Gorm.associationRow association st.associationsIDSeq)
      (front ++ (label, ((Stage.inserting association).advance env st).1) :: back)
      ((Stage.inserting association).advance env st).2 := by
  have asks := new.asks association asking
  rw [advance_of_fresh env asks.blank (new.fresh asking)]
  refine ⟨by simp, asks.acronym, ?_, fun caller member => ?_⟩
  · have positive := st.associationsIDSeq_pos
    change st.associationsIDSeq ≠ 0
    omega
  · have place : caller ∈ front ++ back ∨
        caller = (label, .returned { association with id := st.associationsIDSeq }) := by
      simp only [List.mem_append, List.mem_cons] at member ⊢
      tauto
    rcases place with other | rfl
    · obtain ⟨asked, askedToo, stage⟩ := waiting caller other
      exact .inl ⟨asked, stage, new.asks asked askedToo⟩
    · exact .inr ⟨_, rfl, rfl⟩

/-- A second lookup before the first insert starts a dispute. -/
theorem AskForNew.disputed (new : AskForNew acronym associations st)
    {association other : Association} (asking : association ∈ associations)
    (askingToo : other ∈ associations) {first second : ℕ} (ne : first ≠ second)
    (inserts : (first, .inserting association) ∈ front ++ (second, .lookingUp other) :: back) :
    Disputed acronym
      (front ++ (second, ((Stage.lookingUp other).advance env st).1) :: back)
      ((Stage.lookingUp other).advance env st).2 := by
  rw [advance_of_missing env new.named (new.asks other askingToo) new.missing]
  refine .bothInsert ne (mem_of_other_advances inserts fun equal => ?_)
    (new.asks association asking) (by simp) (new.asks other askingToo)
  exact ne (congrArg Prod.fst equal)

/-- Nobody agrees on a row that is not stored. -/
theorem AskForNew.not_agree {world : World} (new : AskForNew acronym associations world.store)
    (callers : Callers) : ¬ Agree acronym (poolOf world callers) := by
  rintro ⟨row, rows, -⟩
  have member : row ∈ world.store.associations.filter fun stored =>
      stored.acronym == acronym := rows ▸ List.mem_singleton_self row
  obtain ⟨stored, same⟩ := List.mem_filter.mp member
  exact new.missing (beq_iff_eq.mp same ▸ List.mem_map_of_mem stored)

end FirstSteps

/-- **Concurrent callers agree exactly when the first to look also inserts before
anyone else looks.** Of callers that ask for one new association, all return
the id of the one row with its acronym if the first two statements of the run
are those of one caller, and not otherwise. -/
theorem callers_agree_iff (env : Environment) (world : World) (associations : List Association)
    (acronym : String) (new : AskForNew acronym associations world.store)
    {actions : List (Action Call ℕ)}
    {last : Pool Call Call.Answer PanicValue Association World ℕ}
    (run : Pool.Run (callerRules env) (poolOf world (callersOf associations)) actions last)
    (finished : Finished last) :
    Agree acronym last ↔ ∃ caller first second rest,
      actions = .called caller first :: .called caller second :: rest := by
  have numbers := nodup_callersOf associations
  have waits : Waiting associations (callersOf associations) := fun caller => mem_callersOf
  generalize callersOf associations = callers at run numbers waits
  cases run with
  | refl => exact iff_of_false (new.not_agree callers) (by simp)
  | step one further =>
      obtain ⟨front, back, first, stage, call, rfl, next, rfl, rfl⟩ := Step.advances one
      obtain ⟨association, asking, rfl⟩ := waits (first, stage) (by simp)
      rw [advance_of_missing env new.named (new.asks association asking) new.missing] at further
      have waiting : Waiting associations (front ++ back) := by
        intro caller member
        refine waits caller ?_
        simp only [List.mem_append, List.mem_cons] at member ⊢
        tauto
      cases further with
      | refl =>
          -- the one caller that has moved has still to insert
          obtain ⟨_, returned⟩ := finished_iff.mp finished _
            (show (first, .inserting association) ∈ _ by simp)
          cases returned
      | step two rest =>
          obtain ⟨before, behind, second, moved, call', split, next', rfl, rfl⟩ :=
            Step.advances two
          by_cases same : first = second
          · subst same
            refine iff_of_true ?_ ⟨first, call, call', _, rfl⟩
            obtain ⟨rfl, others⟩ := split_eq_of_nodup (by simpa using numbers) split
            obtain ⟨_, _, rfl, settled⟩ := Run.keeps (Settled acronym _)
              (fun _ _ _ _ _ _ next => Settled.advance new.named next) rest
              (new.settled asking (fun caller member => waiting caller (others caller member))
                first)
            exact settled.agree finished
          · refine iff_of_false ?_ ?_
            · have mover : (second, moved) ∈ front ++ (first, .inserting association) :: back :=
                split ▸ by simp
              obtain ⟨other, askingToo, stage⟩ := waiting (second, moved) (by
                simp only [List.mem_append, List.mem_cons, Prod.mk.injEq] at mover ⊢
                tauto)
              obtain rfl : moved = .lookingUp other := stage
              obtain ⟨_, _, rfl, disputed⟩ := Run.keeps (Disputed acronym)
                (fun _ _ _ _ _ _ next => Disputed.advance next) rest
                (new.disputed asking askingToo same (split ▸ by simp))
              exact disputed.not_agree finished
            · rintro ⟨caller, _, _, _, equal⟩
              simp only [List.cons.injEq, Action.called.injEq] at equal
              exact same (equal.1.1.trans equal.2.1.1.symm)

/-- Two callers ask an empty store for the default association. -/
theorem askForNew_default :
    AskForNew "CBRA" [newDefault, newDefault] (World.withEvent .empty "CBRA").store where
  named := by decide
  asks association member := by
    obtain rfl : association = newDefault := by simpa using member
    exact ⟨rfl, rfl⟩
  missing := by decide
  names := by decide
  hosts := by decide
  ids := by decide

/-- One after the other, two callers agree on the association that the first
creates. -/
theorem callers_in_turn_agree :
    AskForNew "CBRA" [newDefault, newDefault] (World.withEvent .empty "CBRA").store ∧
      ∃ actions last, Pool.Run (callerRules .plain)
        (poolOf (World.withEvent .empty "CBRA") (callersOf [newDefault, newDefault]))
        actions last ∧ Finished last ∧ Agree "CBRA" last := by
  let created : Association := { newDefault with id := 1 }
  have run := Pool.Run.step
    (step_of_statement .plain (World.withEvent .empty "CBRA") [] [(1, .lookingUp newDefault)]
      0 (.lookingUp newDefault) rfl)
    (.step (step_of_statement .plain _ [] [(1, .lookingUp newDefault)]
      0 (.inserting newDefault) rfl)
    (.step (step_of_statement .plain _ [(0, .returned created)] []
      1 (.lookingUp newDefault) rfl) (.refl _)))
  have returned : ∀ caller ∈ ([(0, .returned created), (1, .returned created)] : Callers),
      ∃ association, caller.2 = .returned association := by
    simp
  exact ⟨askForNew_default, _, _, run, finished_iff.mpr returned,
    (callers_agree_iff .plain (World.withEvent .empty "CBRA") [newDefault, newDefault] "CBRA"
      askForNew_default run (finished_iff.mpr returned)).mpr ⟨0, _, _, _, rfl⟩⟩

/-- **Two callers that look before either inserts disagree.** The unique index
refuses the second insert, and its caller is left with the blank id. -/
theorem concurrent_callers_disagree :
    AskForNew "CBRA" [newDefault, newDefault] (World.withEvent .empty "CBRA").store ∧
      ∃ actions last, Pool.Run (callerRules .plain)
        (poolOf (World.withEvent .empty "CBRA") (callersOf [newDefault, newDefault]))
        actions last ∧ Finished last ∧ ¬ Agree "CBRA" last := by
  let created : Association := { newDefault with id := 1 }
  have run := Pool.Run.step
    (step_of_statement .plain (World.withEvent .empty "CBRA") [] [(1, .lookingUp newDefault)]
      0 (.lookingUp newDefault) rfl)
    (.step (step_of_statement .plain _ [(0, .inserting newDefault)] []
      1 (.lookingUp newDefault) rfl)
    (.step (step_of_statement .plain _ [] [(1, .inserting newDefault)]
      0 (.inserting newDefault) rfl)
    (.step (step_of_statement .plain _ [(0, .returned created)] []
      1 (.inserting newDefault) rfl) (.refl _))))
  have returned : ∀ caller ∈ ([(0, .returned created), (1, .returned newDefault)] : Callers),
      ∃ association, caller.2 = .returned association := by
    simp
  have refused : (1, .returned newDefault) ∈
      ([(0, .returned created), (1, .returned newDefault)] : Callers) := by
    simp
  exact ⟨askForNew_default, _, _, run, finished_iff.mpr returned,
    Disputed.not_agree (.refused refused rfl) (finished_iff.mpr returned)⟩

end ConcurrentFirstOrCreate

end DawnPatrol.Db

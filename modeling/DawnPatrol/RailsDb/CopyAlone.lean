import DawnPatrol.RailsDb.CopyEffect

/-!
# A copy on its own: what its answer promises

Two contracts of a copy that no other request disturbs, each with the exact
condition under which the code keeps it.

A copy that fails leaves the tables as they were, unless the time zone fails to
load for one of the events after the association has been inserted
(`failed_copy_changes_nothing_iff`).

A copy that answers nil has stored the association and all of its events when
every statement it does not look at has succeeded: the read of the events, the
lookup or the insert of the association, and the inserts of the events
(`copy_loses_nothing_iff`).
-/

set_option autoImplicit false

namespace DawnPatrol.RailsDb

open Foundation Go Postgres Execution Db Rails

/-- Two stores hold the same rows. -/
def SameTables (first second : Store) : Prop :=
  first.associations = second.associations ∧ first.events = second.events

variable (env : Environment)

/-- A copy inserts its association. -/
def InsertsAssociation (script : Script) (acronym : String) (racing : RacingAssociation)
    (st : Store) : Prop :=
  Inserts (script .firstAssociation 0) (script .createAssociation 0)
    (RacingAssociationService.copiedAssociation env acronym racing) st

/-- The time zone of the association does not load for some event that was
read, and the association has been inserted by then. -/
def ZoneFailsAfterInsert (m : Machine) (acronym : String) : Prop :=
  let rails := m.world.rails (databaseURL env acronym)
  ∃ racing, Reaches env m.script rails acronym racing ∧
    InsertsAssociation env m.script acronym racing m.world.store ∧
    ∃ n < (railsEventsRead m.script rails).length, m.script .loadLocation n ≠ .none

theorem associationEffect_of_inserts {script : Script} {acronym : String}
    {racing : RacingAssociation} {st : Store}
    (inserts : InsertsAssociation env script acronym racing st) :
    ∃ fresh, associationEffect env script acronym racing st =
      ({ RacingAssociationService.copiedAssociation env acronym racing with
          id := st.associationsIDSeq },
        st.drawAssociationID.addAssociation (Gorm.associationRow
          (RacingAssociationService.copiedAssociation env acronym racing) st.associationsIDSeq)
          fresh) :=
  ⟨inserts.fresh, firstOrCreateEffect_of_inserts rfl inserts _⟩

/-- **A failed copy changes nothing**, unless a date is not converted after the
association has been inserted. -/
theorem failed_copy_changes_nothing_iff (m : Machine) (acronym : String) :
    ((run env (copyRequest env acronym) m).1 ≠ .ok none →
      SameTables (run env (copyRequest env acronym) m).2.world.store m.world.store) ↔
        ¬ ZoneFailsAfterInsert env m acronym := by
  obtain ⟨conns, nextConn, script, ran⟩ := run_copy env acronym m
  simp only [ran]
  set rails := m.world.rails (databaseURL env acronym) with railsIs
  by_cases reached : ∃ racing, Reaches env m.script rails acronym racing
  · obtain ⟨racing, reaches⟩ := reached
    have only : ∀ other, Reaches env m.script rails acronym other → other = racing :=
      fun other also => reaches.unique also
    have zoneFails : ZoneFailsAfterInsert env m acronym ↔
        InsertsAssociation env m.script acronym racing m.world.store ∧
          ∃ n < (railsEventsRead m.script rails).length, m.script .loadLocation n ≠ .none :=
      ⟨fun ⟨other, also, rest⟩ => only other also ▸ rest, fun rest => ⟨racing, reaches, rest⟩⟩
    simp only [copyEffect_of_reaches reaches, zoneFails]
    cases zones : firstFailure (m.script .loadLocation) (railsEventsRead m.script rails).length with
    | none =>
        have loads := firstFailure_eq_none.mp zones
        have noFailure : ¬ ∃ n < (railsEventsRead m.script rails).length,
            m.script .loadLocation n ≠ .none := fun ⟨n, inside, fails⟩ => fails (loads n inside)
        simp [noFailure]
    | some err =>
        have failure : ∃ n < (railsEventsRead m.script rails).length,
            m.script .loadLocation n ≠ .none := by
          by_contra none
          push Not at none
          rw [firstFailure_eq_none.mpr none] at zones
          cases zones
        simp only [failure, and_true, ne_eq, reduceCtorEq, Except.ok.injEq, not_false_eq_true,
          true_imp_iff]
        by_cases inserts : InsertsAssociation env m.script acronym racing m.world.store
        · obtain ⟨fresh, written⟩ := associationEffect_of_inserts env inserts
          simp [inserts, written, SameTables]
        · have kept := @firstOrCreateEffect_of_not_inserts env _ _ _ _ rfl inserts
          simp only [inserts, not_false_eq_true, iff_true]
          exact ⟨kept.1, kept.2.1⟩
  · push Not at reached
    obtain ⟨-, kept⟩ := copyEffect_of_not_reaches reached m.world.store
    have noZone : ¬ ZoneFailsAfterInsert env m acronym :=
      fun ⟨racing, reaches, _⟩ => reached racing reaches
    simp only [kept, noZone, not_false_eq_true, iff_true]
    exact fun _ => ⟨rfl, rfl⟩

/-- A copy of a new association with one event, whose time zone does not load,
fails and leaves the association behind. -/
theorem failed_copy_changes_something :
    ¬ ∀ (env : Environment) (m : Machine) (acronym : String),
      (run env (copyRequest env acronym) m).1 ≠ .ok none →
        SameTables (run env (copyRequest env acronym) m).2.world.store m.world.store := by
  intro unchanged
  have same := unchanged .plain
    ⟨.withEvent .empty "CBRA", .failing .loadLocation⟩
    "CBRA" (by decide)
  exact absurd same.1 (by decide)

/-! ## No silent loss -/

/-- The store holds an association with the acronym, and under it every event of
the Rails database. -/
def HoldsCopy (rails : RailsDatabase) (acronym : String) (st : Store) : Prop :=
  ∃ row ∈ st.associations, row.acronym = acronym ∧
    ∀ e ∈ rails.events, st.EventStored row.id e.id

/-- The insert of the event read at a place does not fail, and the id it draws
is new. -/
def InsertAccepted (m : Machine) (i : ℕ) : Prop :=
  m.script .createEvent i = .none ∧
    m.world.store.eventsIDSeq + idsDrawn (m.script .createEvent) i ∉
      m.world.store.events.map EventRow.id

/-- A Rails event is read, and inserted. -/
def IsInserted (m : Machine) (rails : RailsDatabase) (e : Event) : Prop :=
  ∃ i, (railsEventsRead m.script rails)[i]? = some e ∧ InsertAccepted m i

/-- Nothing gets lost on the way: the association is stored and its lookup
reaches it, or it is inserted, and every Rails event is inserted unless it was
stored before. -/
def LosesNothing (m : Machine) (rails : RailsDatabase) (acronym : String)
    (racing : RacingAssociation) : Prop :=
  (∃ row ∈ m.world.store.associations, row.acronym = acronym ∧
    ∀ e ∈ rails.events, m.world.store.EventStored row.id e.id ∨
      (m.script .firstAssociation 0).handsOver = true ∧ row.id ≠ 0 ∧ IsInserted m rails e) ∨
  InsertsAssociation env m.script acronym racing m.world.store ∧
    ∀ e ∈ rails.events, IsInserted m rails e

/-- The events that were read come from the Rails database. -/
theorem mem_of_railsEventsRead {script : Script} {rails : RailsDatabase} {e : Event}
    (read : e ∈ railsEventsRead script rails) : e ∈ rails.events := by
  simp only [railsEventsRead] at read
  cases fault : script .findRailsEvents 0 with
  | none => simpa [fault, Fault.scanned] using read
  | fail err progress =>
      rw [fault] at read
      exact List.mem_of_mem_take read

/-- The events stored under an association once its events have been inserted. -/
theorem eventStored_eventsEffect (m : Machine) {rails : RailsDatabase} {owner : ℤ}
    (known : owner ≠ 0) {st : Store} (owned : owner ∈ st.associations.map AssociationRow.id)
    (sameEvents : st.events = m.world.store.events)
    (sameSeq : st.eventsIDSeq = m.world.store.eventsIDSeq) {e : Event}
    (present : e ∈ rails.events) :
    (eventsEffect env m.script (railsEventsRead m.script rails) owner st).EventStored owner e.id ↔
      m.world.store.EventStored owner e.id ∨ IsInserted m rails e := by
  simp only [Store.EventStored, (eventsEffect_of_owned env m.script _ known owned).2, sameEvents,
    sameSeq, List.mem_append, or_and_right, exists_or]
  refine or_congr Iff.rfl ?_
  simp only [mem_insertedRows, List.getElem?_map, IsInserted, InsertAccepted]
  constructor
  · rintro ⟨row, ⟨i, event, there, accepted, fresh, rfl⟩, -, sameID⟩
    obtain ⟨read, atPlace, rfl⟩ := Option.map_eq_some_iff.mp there
    -- an id names one event of the Rails database
    have same : read = e := List.inj_on_of_nodup_map rails.events_pkey
      (mem_of_railsEventsRead (List.mem_of_getElem? atPlace)) present (Option.some.inj sameID)
    exact ⟨i, same ▸ atPlace, accepted, fresh⟩
  · rintro ⟨i, atPlace, accepted, fresh⟩
    exact ⟨_, ⟨i, converted env owner e, by simp [atPlace], accepted, fresh, rfl⟩, rfl, rfl⟩

section HoldsCopy

/-- The store a copy leaves when it ends with nil. -/
def copied (m : Machine) (rails : RailsDatabase) (acronym : String) (racing : RacingAssociation) :
    Store :=
  let created := associationEffect env m.script acronym racing m.world.store
  eventsEffect env m.script (railsEventsRead m.script rails) created.1.id created.2

variable {m : Machine} {rails : RailsDatabase} {acronym : String} {racing : RacingAssociation}

/-- A copy of a stored association. -/
theorem holdsCopy_of_stored (nonempty : acronym ≠ "") {row : AssociationRow}
    (member : row ∈ m.world.store.associations) (same : row.acronym = acronym) :
    HoldsCopy rails acronym (copied env m rails acronym racing) ↔
      LosesNothing env m rails acronym racing := by
  obtain ⟨answered, sameAssociations, sameEvents, sameSeq⟩ := @firstOrCreateEffect_of_stored env
    (m.script .firstAssociation 0) (m.script .createAssociation 0)
    (RacingAssociationService.copiedAssociation env acronym racing) m.world.store nonempty rfl row
    member same
  change (associationEffect env m.script acronym racing m.world.store).1.id = _ at answered
  change (associationEffect env m.script acronym racing m.world.store).2.associations = _
    at sameAssociations
  change (associationEffect env m.script acronym racing m.world.store).2.events = _ at sameEvents
  change (associationEffect env m.script acronym racing m.world.store).2.eventsIDSeq = _ at sameSeq
  have notInserted : ¬ InsertsAssociation env m.script acronym racing m.world.store :=
    fun inserts => inserts.fresh.acronym (List.mem_map.mpr ⟨row, member, same⟩)
  have theRow : ∀ property : AssociationRow → Prop,
      (∃ other ∈ m.world.store.associations, other.acronym = acronym ∧ property other) ↔
        property row := by
    intro property
    constructor
    · rintro ⟨other, otherMember, otherSame, holds⟩
      rwa [List.inj_on_of_nodup_map m.world.store.associationsAcronymIdx member otherMember
        (same.trans otherSame.symm)]
    · exact fun holds => ⟨row, member, same, holds⟩
  simp only [LosesNothing, notInserted, false_and, or_false, theRow, HoldsCopy, copied, answered]
  by_cases known : (m.script .firstAssociation 0).handsOver = true ∧ row.id ≠ 0
  · have owned : row.id ∈
        (associationEffect env m.script acronym racing m.world.store).2.associations.map
          AssociationRow.id := sameAssociations ▸ List.mem_map_of_mem member
    simp only [known.1, ↓reduceIte, (eventsEffect_of_owned env m.script _ known.2 owned).1,
      sameAssociations, theRow]
    refine forall₂_congr fun e present => ?_
    rw [eventStored_eventsEffect env m known.2 owned sameEvents sameSeq present]
    simp [known.2]
  · have blank : (if (m.script .firstAssociation 0).handsOver = true then row.id else 0) = 0 := by
      split
      · rename_i reached
        by_contra nonzero
        exact known ⟨reached, nonzero⟩
      · rfl
    simp only [blank, eventsEffect_of_blank, sameAssociations, theRow]
    refine forall₂_congr fun e present => ?_
    have noInsert : ¬ ((m.script .firstAssociation 0).handsOver = true ∧ row.id ≠ 0 ∧
        IsInserted m rails e) := fun all => known ⟨all.1, all.2.1⟩
    simp only [noInsert, or_false, Store.EventStored, sameEvents]

/-- A copy of an association that is inserted. -/
theorem holdsCopy_of_inserts
    (inserts : InsertsAssociation env m.script acronym racing m.world.store) :
    HoldsCopy rails acronym (copied env m rails acronym racing) ↔
      LosesNothing env m rails acronym racing := by
  obtain ⟨fresh, written⟩ := associationEffect_of_inserts env inserts
  set st := m.world.store with storeIs
  set row := Gorm.associationRow
    (RacingAssociationService.copiedAssociation env acronym racing) st.associationsIDSeq with rowIs
  set added := st.drawAssociationID.addAssociation row fresh with addedIs
  have known : st.associationsIDSeq ≠ 0 := by have := st.associationsIDSeq_pos; omega
  have owned : st.associationsIDSeq ∈ added.associations.map AssociationRow.id := by
    simp [addedIs, rowIs, Gorm.associationRow]
  have notStored : ∀ other ∈ st.associations, other.acronym ≠ acronym :=
    fun other member same => inserts.fresh.acronym (List.mem_map.mpr ⟨other, member, same⟩)
  have theRow : ∀ property : AssociationRow → Prop,
      (∃ other ∈ added.associations, other.acronym = acronym ∧ property other) ↔ property row := by
    intro property
    constructor
    · rintro ⟨other, member, same, holds⟩
      rcases List.mem_append.mp member with old | new
      · exact absurd same (notStored other old)
      · exact List.mem_singleton.mp new ▸ holds
    · exact fun holds => ⟨row, by simp [addedIs], rfl, holds⟩
  have notOwned : ∀ railsID, ¬ st.EventStored st.associationsIDSeq railsID := by
    rintro railsID ⟨event, member, same, -⟩
    exact inserts.fresh.id (same ▸ st.eventsAssociationID event member)
  have none : ¬ ∃ other ∈ st.associations, other.acronym = acronym ∧
      ∀ e ∈ rails.events, st.EventStored other.id e.id ∨
        (m.script .firstAssociation 0).handsOver = true ∧ other.id ≠ 0 ∧
          IsInserted m rails e := by
    rintro ⟨other, member, same, -⟩
    exact notStored other member same
  have copiedIs : copied env m rails acronym racing =
      eventsEffect env m.script (railsEventsRead m.script rails) st.associationsIDSeq added := by
    simp only [copied, written]
    rfl
  simp only [LosesNothing, ← storeIs, none, inserts, false_or, true_and, HoldsCopy, copiedIs,
    (eventsEffect_of_owned env m.script _ known owned).1, theRow]
  refine forall₂_congr fun e present => ?_
  rw [show row.id = st.associationsIDSeq from rfl,
    eventStored_eventsEffect env m known owned rfl rfl present]
  simp only [← storeIs, notOwned, false_or]

/-- A copy of an association that is neither stored nor inserted. -/
theorem holdsCopy_of_refused (nonempty : acronym ≠ "")
    (missing : acronym ∉ m.world.store.associations.map AssociationRow.acronym)
    (refused : ¬ InsertsAssociation env m.script acronym racing m.world.store) :
    HoldsCopy rails acronym (copied env m rails acronym racing) ↔
      LosesNothing env m rails acronym racing := by
  have notAccepted : m.script .createAssociation 0 = .none → ¬ Store.Fresh (Gorm.associationRow
      (RacingAssociationService.copiedAssociation env acronym racing)
        m.world.store.associationsIDSeq) m.world.store.associations :=
    fun accepted fresh => refused ⟨accepted, fresh, fun unnamed => absurd unnamed nonempty⟩
  obtain ⟨blank, sameAssociations, -⟩ := @firstOrCreateEffect_of_refused env
    (m.script .firstAssociation 0) (m.script .createAssociation 0)
    (RacingAssociationService.copiedAssociation env acronym racing) m.world.store nonempty rfl
    missing notAccepted
  have noRow : ∀ property : AssociationRow → Prop,
      ¬ ∃ other ∈ m.world.store.associations, other.acronym = acronym ∧ property other :=
    fun property ⟨other, member, same, _⟩ => missing (List.mem_map.mpr ⟨other, member, same⟩)
  change (associationEffect env m.script acronym racing m.world.store).1.id = _ at blank
  change (associationEffect env m.script acronym racing m.world.store).2.associations = _
    at sameAssociations
  simp only [LosesNothing, refused, false_and, or_false, HoldsCopy, copied, blank,
    eventsEffect_of_blank, sameAssociations, noRow]

end HoldsCopy

/-- **A copy that answers nil has lost nothing** exactly when its association is
found or inserted, and every Rails event is read and inserted unless it was
stored before. -/
theorem copy_loses_nothing_iff (m : Machine) (acronym : String) (nonempty : acronym ≠ "") :
    ((run env (copyRequest env acronym) m).1 = .ok none →
      HoldsCopy (m.world.rails (databaseURL env acronym)) acronym
        (run env (copyRequest env acronym) m).2.world.store) ↔
      ∀ racing, Completes env m.script (m.world.rails (databaseURL env acronym)) acronym racing →
        LosesNothing env m (m.world.rails (databaseURL env acronym)) acronym racing := by
  obtain ⟨conns, nextConn, script, ran⟩ := run_copy env acronym m
  simp only [ran]
  set rails := m.world.rails (databaseURL env acronym) with railsIs
  by_cases completes : ∃ racing, Completes env m.script rails acronym racing
  · obtain ⟨racing, complete⟩ := completes
    have only : ∀ other, Completes env m.script rails acronym other → other = racing :=
      fun other also => complete.reaches.unique also.reaches
    have onlyOne : (∀ other, Completes env m.script rails acronym other →
        LosesNothing env m rails acronym other) ↔ LosesNothing env m rails acronym racing :=
      ⟨fun all => all racing complete, fun one other also => only other also ▸ one⟩
    simp only [copyEffect_of_reaches complete.reaches, firstFailure_eq_none.mpr complete.loads,
      true_imp_iff, onlyOne]
    by_cases stored : acronym ∈ m.world.store.associations.map AssociationRow.acronym
    · obtain ⟨row, member, same⟩ := List.mem_map.mp stored
      exact holdsCopy_of_stored env nonempty member same
    · by_cases inserts : InsertsAssociation env m.script acronym racing m.world.store
      · exact holdsCopy_of_inserts env inserts
      · exact holdsCopy_of_refused env nonempty stored inserts
  · have fails := copyEffect_of_not_completes env completes m.world.store
    push Not at completes
    simp [fails, completes]

/-- A copy to an empty store answers nil and has stored its association and the event. -/
theorem copy_to_empty_store_loses_nothing :
    let m : Machine := ⟨.withEvent .empty "CBRA", .clear⟩
    (run .plain (copyRequest .plain "CBRA") m).1 = .ok none ∧
      (m.world.rails (databaseURL .plain "CBRA")).events.length = 1 ∧
        HoldsCopy (m.world.rails (databaseURL .plain "CBRA")) "CBRA"
          (run .plain (copyRequest .plain "CBRA") m).2.world.store := by
  intro m
  have ends : (run .plain (copyRequest .plain "CBRA") m).1 = .ok none := by decide
  refine ⟨ends, rfl, (copy_loses_nothing_iff .plain m "CBRA" (by decide)).mpr ?_ ends⟩
  intro racing _
  have fresh : Store.Fresh (Gorm.associationRow
      (RacingAssociationService.copiedAssociation .plain "CBRA" racing)
        m.world.store.associationsIDSeq) m.world.store.associations :=
    ⟨List.not_mem_nil, List.not_mem_nil, List.not_mem_nil, List.not_mem_nil⟩
  refine .inr ⟨⟨rfl, fresh, fun _ _ => rfl⟩, fun e member => ⟨0, ?_, rfl, List.not_mem_nil⟩⟩
  rw [List.mem_singleton.mp member]
  rfl

/-- The first copy to a seeded store draws the id of the seeded association. Its
insert is refused, no event is inserted, and the answer is nil. -/
theorem copy_loses_association :
    ¬ ∀ (env : Environment) (m : Machine) (acronym : String), acronym ≠ "" →
      (run env (copyRequest env acronym) m).1 = .ok none →
        HoldsCopy (m.world.rails (databaseURL env acronym)) acronym
          (run env (copyRequest env acronym) m).2.world.store := by
  intro holds
  obtain ⟨row, member, same, -⟩ := holds .plain
    ⟨.withEvent .seeded "ATRA", .clear⟩ "ATRA"
    (by decide) (by decide)
  have others : ∀ row ∈ (run .plain (copyRequest .plain "ATRA")
      ⟨.withEvent .seeded "ATRA", .clear⟩).2.world.store.associations, row.acronym ≠ "ATRA" := by
    decide
  exact others row member same

end DawnPatrol.RailsDb

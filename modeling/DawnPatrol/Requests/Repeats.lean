import DawnPatrol.RailsDb.CopyAlone
import DawnPatrol.Requests.CopySteps

/-!
# Repeating a copy

No index keeps the pair of association and Rails id of an event unique, and a
copy inserts every Rails event it reads. The pairs stay unique throughout the
careful runs (`careful_copies_repeat_safely`): those in which a copy starts
only while no other copy of its acronym runs, and is handed over only Rails
events of which none is stored under the acronym.

A copy that runs after another leaves the events as it finds them exactly when
it adds none (`copy_adds_nothing_iff`): it ends before its events, has no
association, is handed no Rails event, or all of its inserts fail. Copying
twice in a row stores every event twice (`copying_twice_duplicates`).
-/

set_option autoImplicit false

namespace DawnPatrol.Requests

open Foundation Go Api Postgres Execution Db Rails RailsDb

/-- No two events belong to the same association and have the same Rails id. -/
def NoDuplicates (st : Store) : Prop :=
  (st.events.map fun event => (event.associationID, event.railsID)).Nodup

variable {env : Environment} {careful : Prop} {acronym : String} {st next : Store}

/-- A careful step adds no duplicate. -/
theorem NoDuplicates.step (unique : NoDuplicates st)
    (step : StoreStep env True acronym st next) : NoDuplicates next := by
  cases step with
  | same => exact unique
  | drewAssociationID => exact unique
  | addedAssociation => exact unique
  | drewEventID => exact unique
  | addedEvent fresh owned owner drawn isNew =>
      refine nodup_map_concat unique fun taken => ?_
      obtain ⟨event, member, same⟩ := List.mem_map.mp taken
      exact isNew trivial event member ⟨congrArg Prod.fst same, congrArg Prod.snd same⟩

/-- A step keeps a store well numbered. -/
theorem StoreStep.wellNumbered (step : StoreStep env careful acronym st next)
    (numbered : st.WellNumbered) : next.WellNumbered := by
  have pos := st.associationsIDSeq_pos
  cases step with
  | same => exact numbered
  | drewAssociationID =>
      refine ⟨fun row member => ?_, numbered.events⟩
      have := numbered.associations row member
      simp only [Store.drawAssociationID_associationsIDSeq]
      omega
  | addedAssociation fresh copied drawn =>
      refine ⟨fun row member => ?_, numbered.events⟩
      simp only [Store.addAssociation_associationsIDSeq, Store.drawAssociationID_associationsIDSeq]
      rcases List.mem_append.mp member with old | new
      · have := numbered.associations row old
        omega
      · rw [List.mem_singleton.mp new, drawn]
        omega
  | drewEventID =>
      refine ⟨numbered.associations, fun row member => ?_⟩
      have := numbered.events row member
      simp only [Store.drawEventID_eventsIDSeq]
      omega
  | addedEvent fresh owned owner drawn isNew =>
      refine ⟨numbered.associations, fun row member => ?_⟩
      simp only [Store.addEvent_eventsIDSeq, Store.drawEventID_eventsIDSeq]
      rcases List.mem_append.mp member with old | new
      · have := numbered.events row old
        omega
      · rw [List.mem_singleton.mp new, drawn]
        omega

/-! ## A copy that adds no event -/

/-- The lookup of a copy hands over a row with its acronym. -/
def FindsAssociation (m : Machine) (acronym : String) : Prop :=
  acronym ∈ m.world.store.associations.map AssociationRow.acronym ∧
    (m.script .firstAssociation 0).handsOver = true

/-- A copy adds events: it comes as far as its events, finds or inserts its association,
and the insert of an event that it was handed over does not fail. -/
structure AddsEvents (env : Environment) (m : Machine) (acronym : String)
    (racing : RacingAssociation) : Prop where
  completes : Completes env m.script (m.world.rails (databaseURL env acronym)) acronym racing
  association : FindsAssociation m acronym ∨
    InsertsAssociation env m.script acronym racing m.world.store
  accepted : ∃ i < (railsEventsRead m.script (m.world.rails (databaseURL env acronym))).length,
    m.script .createEvent i = .none

/-- Without an id that is taken, only inserts that fail add no row. -/
theorem insertedRows_eq_nil_iff {faults : ℕ → Fault} {events : List Api.Event}
    (below : ∀ row ∈ st.events, row.id < st.eventsIDSeq) :
    insertedRows (st.events.map EventRow.id) faults st.eventsIDSeq events = [] ↔
      ¬ ∃ i < events.length, faults i = .none := by
  rw [List.eq_nil_iff_forall_not_mem]
  simp only [mem_insertedRows]
  constructor
  · rintro none ⟨i, inside, accepted⟩
    refine none _ ⟨i, events[i], List.getElem?_eq_getElem inside, accepted, ?_, rfl⟩
    intro taken
    obtain ⟨row, member, same⟩ := List.mem_map.mp taken
    have := below row member
    omega
  · rintro fails row ⟨i, event, there, accepted, -⟩
    obtain ⟨inside, -⟩ := List.getElem?_eq_some_iff.mp there
    exact fails ⟨i, inside, accepted⟩

/-- The association of a copy is stored under the id that it answers, or it is neither
found nor inserted. The events are left alone. -/
theorem associationEffect_cases {m : Machine} (named : acronym ≠ "")
    (numbered : m.world.store.WellNumbered) (racing : RacingAssociation) :
    let created := associationEffect env m.script acronym racing m.world.store
    created.2.events = m.world.store.events ∧ created.2.eventsIDSeq = m.world.store.eventsIDSeq ∧
      ((FindsAssociation m acronym ∨
          InsertsAssociation env m.script acronym racing m.world.store) ∧ created.1.id ≠ 0 ∧
            created.1.id ∈ created.2.associations.map AssociationRow.id ∨
        ¬ (FindsAssociation m acronym ∨
          InsertsAssociation env m.script acronym racing m.world.store) ∧ created.1.id = 0) := by
  intro created
  set copied := RacingAssociationService.copiedAssociation env acronym racing with isCopied
  by_cases stored : acronym ∈ m.world.store.associations.map AssociationRow.acronym
  · obtain ⟨row, member, same⟩ := List.mem_map.mp stored
    obtain ⟨answered, associations, events, eventsIDSeq⟩ := @firstOrCreateEffect_of_stored env
      (m.script .firstAssociation 0) (m.script .createAssociation 0) copied m.world.store named rfl
      row member same
    change created.1.id = _ at answered
    refine ⟨events, eventsIDSeq, ?_⟩
    have notInserted : ¬ InsertsAssociation env m.script acronym racing m.world.store :=
      fun inserts => inserts.fresh.acronym stored
    cases reached : (m.script .firstAssociation 0).handsOver with
    | true =>
        rw [reached, if_pos rfl] at answered
        refine .inl ⟨.inl ⟨stored, reached⟩, ?_, ?_⟩
        · rw [answered]
          exact (numbered.associations row member).1.ne'
        · rw [answered]
          exact List.mem_map_of_mem (associations ▸ member)
    | false =>
        rw [reached] at answered
        have unfound : ¬ FindsAssociation m acronym := by
          rintro ⟨-, reaches⟩
          rw [reached] at reaches
          cases reaches
        exact .inr ⟨fun either => either.elim unfound notInserted, answered⟩
  · have unfound : ¬ FindsAssociation m acronym := fun finds => stored finds.1
    by_cases inserts : InsertsAssociation env m.script acronym racing m.world.store
    · obtain ⟨fresh, written⟩ := associationEffect_of_inserts env inserts
      have isWritten : created = _ := written
      have pos := m.world.store.associationsIDSeq_pos
      rw [isWritten]
      refine ⟨rfl, rfl, .inl ⟨.inr inserts, by simp only; omega, ?_⟩⟩
      simp [Gorm.associationRow]
    · have notAccepted : m.script .createAssociation 0 = .none → ¬ Store.Fresh
          (Gorm.associationRow copied m.world.store.associationsIDSeq)
            m.world.store.associations :=
        fun accepted fresh => inserts ⟨accepted, fresh, fun unnamed => absurd unnamed named⟩
      obtain ⟨blank, -, events, eventsIDSeq⟩ := @firstOrCreateEffect_of_refused env
        (m.script .firstAssociation 0) (m.script .createAssociation 0) copied m.world.store named
        rfl stored notAccepted
      exact ⟨events, eventsIDSeq, .inr ⟨fun either => either.elim unfound inserts, blank⟩⟩

/-- **A copy leaves the events as they are** exactly when it adds none. -/
theorem copy_adds_nothing_iff (env : Environment) (m : Machine) (named : acronym ≠ "")
    (numbered : m.world.store.WellNumbered) :
    (run env (copyRequest env acronym) m).2.world.store.events = m.world.store.events ↔
      ∀ racing, ¬ AddsEvents env m acronym racing := by
  obtain ⟨conns, nextConn, script, ran⟩ := run_copy env acronym m
  simp only [ran]
  set rails := m.world.rails (databaseURL env acronym) with railsIs
  by_cases reached : ∃ racing, Reaches env m.script rails acronym racing
  · obtain ⟨racing, reaches⟩ := reached
    obtain ⟨events, eventsIDSeq, known⟩ := @associationEffect_cases env acronym m named numbered
      racing
    rw [copyEffect_of_reaches reaches]
    simp only
    cases zones : firstFailure (m.script .loadLocation) (railsEventsRead m.script rails).length with
    | some err =>
        refine iff_of_true events fun other adds => ?_
        rw [firstFailure_eq_none.mpr adds.completes.loads] at zones
        cases zones
    | none =>
        have completes : Completes env m.script rails acronym racing :=
          ⟨reaches, firstFailure_eq_none.mp zones⟩
        rcases known with ⟨has, nonzero, owned⟩ | ⟨hasNone, blank⟩
        · have below : ∀ row ∈ (associationEffect env m.script acronym racing
              m.world.store).2.events, row.id < (associationEffect env m.script acronym racing
                m.world.store).2.eventsIDSeq := by
            rw [events, eventsIDSeq]
            exact numbered.events
          rw [(eventsEffect_of_owned env m.script _ nonzero owned).2, ← events,
            List.append_right_eq_self, insertedRows_eq_nil_iff below, List.length_map]
          constructor
          · exact fun fails other adds => fails adds.accepted
          · exact fun none accepted => none racing ⟨completes, has, accepted⟩
        · rw [blank, eventsEffect_of_blank]
          refine iff_of_true events fun other adds => hasNone ?_
          exact reaches.unique adds.completes.reaches ▸ adds.association
  · rw [not_exists] at reached
    refine iff_of_true ?_ fun racing adds => reached racing adds.completes.reaches
    exact congrArg Store.events (copyEffect_of_not_reaches reached m.world.store).2

/-- A copy that runs on its own keeps a store well numbered. -/
theorem wellNumbered_copy (named : acronym ≠ "") {m : Machine}
    (numbered : m.world.store.WellNumbered) :
    (run env (copyRequest env acronym) m).2.world.store.WellNumbered := by
  obtain ⟨actions, -, ran⟩ := @run_alone env (fun _ => True) acronym [] [] m
  have starts : (copyRules env False fun _ => True).starts ⟨m.world, []⟩ acronym
      (copyRequest env acronym) := ⟨named, rfl, False.elim⟩
  exact (copies_keep Store.WellNumbered (fun _ => True)
    (fun _ _ _ _ step holds => step.wellNumbered holds) (.step (.start starts) ran)
    (.of_no_threads m.world) numbered (fun _ _ => trivial) fun _ _ => trivial).2

/-- **Copy can be repeated safely** in careful runs: no two events have the same
association and Rails id. When, after such a run, a copy runs on its own and
then again, whatever faults the two meet, the second leaves the events as the
first left them exactly when it adds none. -/
theorem careful_copies_repeat_safely (env : Environment) {w : World} (new : w.store = .empty)
    {last : Pool Call Call.Answer PanicValue (Option GoError) World String}
    {actions : List (Action Call String)}
    (run : Pool.Run (copyRules env True fun _ => True) ⟨w, []⟩ actions last) :
    NoDuplicates last.world.store ∧
      ∀ acronym ≠ "", ∀ first second : Script,
        let once := (Execution.run env (copyRequest env acronym) ⟨last.world, first⟩).2.world
        let twice := (Execution.run env (copyRequest env acronym) ⟨once, second⟩).2.world
        twice.store.events = once.store.events ↔
          ∀ racing, ¬ AddsEvents env ⟨once, second⟩ acronym racing := by
  obtain ⟨-, unique, numbered⟩ := copies_keep (fun st => NoDuplicates st ∧ st.WellNumbered)
    (fun _ => True) (fun _ _ _ _ step holds => ⟨holds.1.step step, step.wellNumbered holds.2⟩) run
    (.of_no_threads w) (new ▸ ⟨List.nodup_nil, .empty⟩) (fun _ _ => trivial) (fun _ _ => trivial)
  refine ⟨unique, fun acronym named first second => ?_⟩
  exact copy_adds_nothing_iff env _ named (wellNumbered_copy named numbered)

/-- The first copy of an association with one event may start and go on in a careful run. -/
theorem first_copy_is_careful :
    Pool.Allows (handle .plain) Machine.world (copyRules .plain True fun _ => True) "CBRA"
      (copyRequest .plain "CBRA") ⟨.withEvent .empty "CBRA", .clear⟩ := by
  have others : ∀ (m : Machine) (call : Call), (∀ conn, call ≠ .findRailsEvents conn) →
      (copyRules .plain True fun _ => True).exec "CBRA" m.world call (handle .plain call m).1
        (handle .plain call m).2.world := by
    refine fun m call other => ⟨⟨_, rfl⟩, fun _ conn read same => ?_⟩
    exact absurd (congrArg Sigma.fst same) (other conn)
  refine And.intro (others _ _ (by simp)) (And.intro ⟨⟨.none, rfl⟩, ?_⟩ ?_)
  · intro _ conn read _ row member
    cases member
  · exact And.intro (others _ _ (by simp)) (And.intro (others _ _ (by simp))
      (And.intro (others _ _ (by simp)) (And.intro (others _ _ (by simp))
        (And.intro (others _ _ (by simp)) (And.intro (others _ _ (by simp))
          (And.intro (others _ _ (by simp)) trivial))))))

/-- A copy inserts an association and its event. The copy that runs after it and is handed
no event leaves the two rows alone, and so does another one. -/
theorem copy_that_reads_nothing_repeats_safely :
    let copied := (run .plain (copyRequest .plain "CBRA")
      ⟨.withEvent .empty "CBRA", .clear⟩).2.world
    let once := (run .plain (copyRequest .plain "CBRA")
      ⟨copied, .failing .findRailsEvents⟩).2.world
    let twice := (run .plain (copyRequest .plain "CBRA")
      ⟨once, .failing .findRailsEvents⟩).2.world
    copied.store.events.length = 1 ∧ NoDuplicates copied.store ∧
      once.store.events.length = 1 ∧ twice.store.events = once.store.events := by
  intro copied once twice
  obtain ⟨actions, -, ran⟩ := Pool.Run.alone _ _ [] [] first_copy_is_careful
  have starts : (copyRules .plain True fun _ => True).starts ⟨.withEvent .empty "CBRA", []⟩ "CBRA"
      (copyRequest .plain "CBRA") := by
    refine ⟨by decide, rfl, fun _ live => ?_⟩
    obtain ⟨program, member, -⟩ := live
    cases member
  obtain ⟨unique, repeats⟩ := careful_copies_repeat_safely .plain
    (rfl : (World.withEvent .empty "CBRA").store = .empty) (.step (.start starts) ran)
  refine ⟨by decide, unique, by decide, ?_⟩
  refine (repeats "CBRA" (by decide) (.failing .findRailsEvents)
    (.failing .findRailsEvents)).mpr fun racing adds => ?_
  obtain ⟨i, inside, -⟩ := adds.accepted
  exact absurd inside (Nat.not_lt_zero i)

/-- Copying an association with one event twice in a row stores the event twice. -/
theorem copying_twice_duplicates :
    ¬ ∀ (env : Environment) (w : World), w.store = .empty →
      ∀ (actions : List (Action Call String))
        (last : Pool Call Call.Answer PanicValue (Option GoError) World String),
        Pool.Run (copyRules env False fun _ => True) ⟨w, []⟩ actions last →
          NoDuplicates last.world.store := by
  intro safe
  have first := @run_alone .plain (fun _ => True) "CBRA" [] []
    ⟨.withEvent .empty "CBRA", .clear⟩
  obtain ⟨_, -, ranFirst⟩ := first
  have second := @run_alone .plain (fun _ => True) "CBRA"
    [("CBRA", Pool.ended (run .plain (copyRequest .plain "CBRA")
      ⟨.withEvent .empty "CBRA", .clear⟩).1)] []
    ⟨(run .plain (copyRequest .plain "CBRA") ⟨.withEvent .empty "CBRA", .clear⟩).2.world, .clear⟩
  obtain ⟨_, -, ranSecond⟩ := second
  have starts : ∀ pool : Pool Call Call.Answer PanicValue (Option GoError) World String,
      (copyRules .plain False fun _ => True).starts pool "CBRA" (copyRequest .plain "CBRA") :=
    fun _ => ⟨by decide, rfl, False.elim⟩
  have duplicates := safe .plain _ rfl _ _
    (.step (.start (starts _)) (ranFirst.trans (.step (.start (starts _)) ranSecond)))
  exact absurd duplicates (by unfold NoDuplicates; decide)

end DawnPatrol.Requests

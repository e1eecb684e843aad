import DawnPatrol.RailsDb.RacingAssociations

/-!
# What a copy does

A copy that runs on its own is a function of the faults of its calls, of the
Rails database it reads and of the store it starts from. `copyEffect` is that
function, written as the sequence of the ways in which a copy can end, and
`run_copy` says that the program computes it. Only the store and the list of
open connections change.
-/

set_option autoImplicit false

namespace DawnPatrol.RailsDb

open Foundation Go Postgres Execution Db Rails

variable (env : Environment)

/-! ## The steps of a copy -/

/-- The name of the time zone of the association. -/
def associationTimeZone : String := "America/Los_Angeles"

/-- A date in the time zone of the association. -/
def inAssociationTimeZone (date : Time) : Time :=
  Go.date date.year date.month date.day date.minute date.hour date.second date.nanosecond
    (env.zone associationTimeZone)

/-- The event a Rails event is copied to. -/
def converted (associationID : ℤ) (e : Event) : Api.Event :=
  RacingAssociationService.copiedEvent associationID e (inAssociationTimeZone env e.date)

/-- The first failure among a number of calls. -/
def firstFailure : (ℕ → Fault) → ℕ → Option GoError
  | _, 0 => none
  | faults, count + 1 =>
      match faults 0 with
      | .none => firstFailure (fun n => faults (n + 1)) count
      | .fail err _ => some err

theorem firstFailure_eq_none {faults : ℕ → Fault} {count : ℕ} :
    firstFailure faults count = none ↔ ∀ n < count, faults n = .none := by
  induction count generalizing faults with
  | zero => simp [firstFailure]
  | succ count ih =>
      simp only [firstFailure]
      split
      · rename_i first
        rw [ih]
        constructor
        · intro rest n inside
          cases n with
          | zero => exact first
          | succ n => exact rest n (by omega)
        · exact fun all n inside => all (n + 1) (by omega)
      · rename_i err progress first
        simp only [reduceCtorEq, false_iff]
        intro all
        simp [all 0 (Nat.succ_pos _)] at first

/-- The Rails events a copy reads. -/
def railsEventsRead (script : Script) (rails : RailsDatabase) : List Event :=
  ((script .findRailsEvents 0).scanned rails.events).1

/-- The racing association a copy finds, or the error of its query. -/
def racingAssociationFound (script : Script) (rails : RailsDatabase) (acronym : String) :
    RacingAssociation × Option GoError :=
  (script .firstRacingAssociation 0).scannedOne (fun _ row => row) {}
    (firstRacingAssociation env acronym rails)

/-- The association a copy finds or creates, with the store that holds it. -/
def associationEffect (script : Script) (acronym : String) (racing : RacingAssociation)
    (st : Store) : Api.Association × Store :=
  firstOrCreateEffect env (script .firstAssociation 0) (script .createAssociation 0)
    (RacingAssociationService.copiedAssociation env acronym racing) st

/-- The store after the events of a copy have been inserted. -/
def eventsEffect (script : Script) (railsEvents : List Event) (associationID : ℤ) (st : Store) :
    Store :=
  (createEffect (script .createEvent) (railsEvents.map (converted env associationID)) st).2

/-- What a copy does with the connection it has opened, as the sequence of the
ways in which it can end. -/
def copyFromEffect (script : Script) (rails : RailsDatabase) (acronym : String) (st : Store) :
    Except PanicValue (Option GoError) × Store :=
  let url := databaseURL env acronym
  match openOutcome (databaseDriver url) url (script .openConn) none 10 with
  | .error panic => (.error panic, st)
  | .ok _ =>
      match racingAssociationFound env script rails acronym with
      | (_, some err) => (.ok (some err), st)
      | (racing, none) =>
          let railsEvents := railsEventsRead script rails
          let created := associationEffect env script acronym racing st
          match firstFailure (script .loadLocation) railsEvents.length with
          | some err => (.ok (some err), created.2)
          | none => (.ok none, eventsEffect env script railsEvents created.1.id created.2)

/-- How a copy ends, and the store it leaves. -/
def copyEffect (script : Script) (rails : RailsDatabase) (acronym : String) (st : Store) :
    Except PanicValue (Option GoError) × Store :=
  let url := databaseURL env acronym
  match openOutcome (databaseDriver url) url (script .openConn) none 10 with
  | .error panic => (.error panic, st)
  | .ok failures =>
      -- the second connection meets the faults after those of the first
      copyFromEffect env (script.skip .openConn (failures + 1)) rails acronym st

/-! ## The events of a copy -/

theorem converted_plain (associationID : ℤ) (e : Event) :
    Plain associationID (converted env associationID e) :=
  ⟨rfl, rfl, rfl⟩

theorem plain_of_mem_map (associationID : ℤ) (railsEvents : List Event) :
    ∀ event ∈ railsEvents.map (converted env associationID), Plain associationID event := by
  intro event member
  obtain ⟨e, -, rfl⟩ := List.mem_map.mp member
  exact converted_plain env associationID e

/-- A copy inserts the events of a stored association. -/
theorem eventsEffect_of_owned (script : Script) (railsEvents : List Event) {owner : ℤ}
    (known : owner ≠ 0) {st : Store} (owned : owner ∈ st.associations.map AssociationRow.id) :
    (eventsEffect env script railsEvents owner st).associations = st.associations ∧
      (eventsEffect env script railsEvents owner st).events =
        st.events ++ insertedRows (st.events.map EventRow.id) (script .createEvent)
          st.eventsIDSeq (railsEvents.map (converted env owner)) := by
  have inserted := createEffect_of_plain known (st.events.map EventRow.id) (script .createEvent)
    (plain_of_mem_map env owner railsEvents) st owned (fun _ member => member)
    (fun _ member => .inl member)
  exact ⟨inserted.2.1, inserted.2.2.2.1⟩

/-- A copy without an association inserts no events. -/
theorem eventsEffect_of_blank (script : Script) (railsEvents : List Event) (st : Store) :
    eventsEffect env script railsEvents 0 st = st :=
  createEffect_of_blank _ (plain_of_mem_map env 0 railsEvents) st

/-! ## How far a copy comes -/

/-- A copy opens both connections and finds its racing association. -/
structure Reaches (script : Script) (rails : RailsDatabase) (acronym : String)
    (racing : RacingAssociation) : Prop where
  opens : ∃ failures,
    openOutcome (databaseDriver (databaseURL env acronym)) (databaseURL env acronym)
      (script .openConn) none 10 = .ok failures ∧
    ∃ more, openOutcome (databaseDriver (databaseURL env acronym)) (databaseURL env acronym)
      (fun n => script .openConn (n + (failures + 1))) none 10 = .ok more
  found : racingAssociationFound env script rails acronym = (racing, none)

section Reaches

variable {env} {script : Script} {rails : RailsDatabase} {acronym : String}
  {racing : RacingAssociation}

/-- A copy that comes as far as the association writes it, and then its events
unless a date is not converted. -/
theorem copyEffect_of_reaches (reached : Reaches env script rails acronym racing) (st : Store) :
    copyEffect env script rails acronym st =
      let railsEvents := railsEventsRead script rails
      let created := associationEffect env script acronym racing st
      match firstFailure (script .loadLocation) railsEvents.length with
      | some err => (.ok (some err), created.2)
      | none => (.ok none, eventsEffect env script railsEvents created.1.id created.2) := by
  obtain ⟨failures, first, more, second⟩ := reached.opens
  have found : racingAssociationFound env (script.skip .openConn (failures + 1)) rails acronym =
      (racing, none) := reached.found
  simp only [copyEffect, first, copyFromEffect, Script.skip_kind, second, found]
  rfl

/-- A copy that does not come as far as the association ends other than with
nil, and writes nothing. -/
theorem copyEffect_of_not_reaches
    (unreached : ∀ racing, ¬ Reaches env script rails acronym racing) (st : Store) :
    (copyEffect env script rails acronym st).1 ≠ .ok none ∧
      (copyEffect env script rails acronym st).2 = st := by
  simp only [copyEffect]
  cases first : openOutcome (databaseDriver (databaseURL env acronym)) (databaseURL env acronym)
      (script .openConn) none 10 with
  | error panic => exact ⟨by simp, rfl⟩
  | ok failures =>
      simp only [copyFromEffect, Script.skip_kind]
      cases second : openOutcome (databaseDriver (databaseURL env acronym))
          (databaseURL env acronym) (fun n => script .openConn (n + (failures + 1))) none 10 with
      | error panic => exact ⟨by simp, rfl⟩
      | ok more =>
          have sameFound : racingAssociationFound env (script.skip .openConn (failures + 1)) rails
              acronym = racingAssociationFound env script rails acronym := rfl
          simp only [sameFound]
          cases found : racingAssociationFound env script rails acronym with
          | mk racing err =>
              cases err with
              | some err => exact ⟨by simp, rfl⟩
              | none => exact absurd ⟨⟨failures, first, more, second⟩, found⟩ (unreached racing)

/-- A copy finds one racing association. -/
theorem Reaches.unique {other : RacingAssociation}
    (reached : Reaches env script rails acronym racing)
    (also : Reaches env script rails acronym other) : other = racing := by
  simpa using also.found.symm.trans reached.found

end Reaches

/-- A copy ends with nil: it comes as far as its association, and every date is
converted. -/
structure Completes (script : Script) (rails : RailsDatabase) (acronym : String)
    (racing : RacingAssociation) : Prop where
  reaches : Reaches env script rails acronym racing
  loads : ∀ n < (railsEventsRead script rails).length, script .loadLocation n = .none

/-- A copy that does not complete does not end with nil. -/
theorem copyEffect_of_not_completes {script : Script} {rails : RailsDatabase} {acronym : String}
    (incomplete : ¬ ∃ racing, Completes env script rails acronym racing) (st : Store) :
    (copyEffect env script rails acronym st).1 ≠ .ok none := by
  by_cases reached : ∃ racing, Reaches env script rails acronym racing
  · obtain ⟨racing, reaches⟩ := reached
    rw [copyEffect_of_reaches reaches]
    cases zones : firstFailure (script .loadLocation) (railsEventsRead script rails).length with
    | none => exact absurd ⟨racing, reaches, firstFailure_eq_none.mp zones⟩ incomplete
    | some err => simp [zones]
  · push Not at reached
    exact (copyEffect_of_not_reaches reached st).1

/-! ## The program computes the effect -/

theorem run_find (acronym : String) (m : Machine) :
    run env (RacingAssociationService.find env acronym) m =
      let url := databaseURL env acronym
      match openOutcome (databaseDriver url) url (m.script .openConn) none 10 with
      | .error panic => (.error panic, ⟨m.world, m.script.skip .openConn 10⟩)
      | .ok failures =>
          (.ok (racingAssociationFound env m.script (m.world.rails url) acronym),
            ⟨m.world.opened url,
              (m.script.skip .openConn (failures + 1)).next .firstRacingAssociation⟩) := by
  simp only [RacingAssociationService.find, Program.bind_eq, run_bind, run_for]
  cases openOutcome (databaseDriver (databaseURL env acronym)) (databaseURL env acronym)
      (m.script .openConn) none 10 with
  | error panic => rfl
  | ok failures => rfl

/-- The events are converted until a date fails. -/
theorem run_copiedEvents (associationID : ℤ) (railsEvents : List Event) (m : Machine) :
    ∃ script : Script, (∀ kind ≠ .loadLocation, script kind = m.script kind) ∧
      run env (RacingAssociationService.copiedEvents associationID railsEvents) m =
        (.ok (match firstFailure (m.script .loadLocation) railsEvents.length with
          | none => .ok (railsEvents.map (converted env associationID))
          | some err => .error err), ⟨m.world, script⟩) := by
  induction railsEvents generalizing m with
  | nil => exact ⟨m.script, fun _ _ => rfl, rfl⟩
  | cons e railsEvents ih =>
      simp only [RacingAssociationService.copiedEvents, toAssociationTimeZone, Program.bind_eq,
        Program.perform_bind, Program.call_bind, run_call, handle, Call.kind, answer,
        List.length_cons, firstFailure]
      cases first : m.script .loadLocation 0 with
      | fail err progress =>
          exact ⟨m.script.next .loadLocation, fun kind other => by simp [other], rfl⟩
      | none =>
          obtain ⟨script, kept, ran⟩ := ih ⟨m.world, m.script.next .loadLocation⟩
          simp only [Script.next_kind] at ran
          refine ⟨script, fun kind other => ?_, ?_⟩
          · rw [kept kind other]
            simp [other]
          · simp only [Program.pure_eq, Program.ret_bind, run_bind, ran]
            cases firstFailure (fun n => m.script .loadLocation (n + 1)) railsEvents.length <;> rfl

/-- What a copy writes on its own, up to the events that it hands to the event
service. -/
theorem run_writeCopy_until_create (acronym : String) (railsEvents : List Event)
    (racing : RacingAssociation) (m : Machine) :
    ∃ script : Script, script .createEvent = m.script .createEvent ∧
      ∀ apiEventService : Api.EventService,
        run env (RacingAssociationService.writeCopy env apiEventService associationService acronym
          railsEvents racing) m =
          let created := associationEffect env m.script acronym racing m.world.store
          let written : Machine := ⟨{ m.world with store := created.2 }, script⟩
          match firstFailure (m.script .loadLocation) railsEvents.length with
          | some err => (.ok (some err), written)
          | none =>
              run env ((apiEventService.create
                (railsEvents.map (converted env created.1.id))).bind fun _ => .ret none)
                  written := by
  set created := associationEffect env m.script acronym racing m.world.store with createdIs
  set written : Machine := ⟨{ m.world with store := created.2 },
    scriptAfterFirstOrCreate env
      (RacingAssociationService.copiedAssociation env acronym racing) m⟩ with writtenIs
  have found : run env (associationService.firstOrCreate
      (RacingAssociationService.copiedAssociation env acronym racing)) m =
        (.ok created.1, written) := run_firstOrCreate env _ m
  have foundKeeps : ∀ kind, kind ≠ .firstAssociation → kind ≠ .createAssociation →
      written.script kind = m.script kind := by
    intro kind first second
    simp only [writtenIs, scriptAfterFirstOrCreate]
    split <;> simp [first, second]
  obtain ⟨zoneScript, zoneKeeps, zones⟩ :=
    run_copiedEvents env created.1.id railsEvents written
  rw [foundKeeps .loadLocation (by decide) (by decide)] at zones
  refine ⟨zoneScript, ?_, fun apiEventService => ?_⟩
  · rw [zoneKeeps .createEvent (by decide), foundKeeps .createEvent (by decide) (by decide)]
  · simp only [RacingAssociationService.writeCopy, Program.bind_eq]
    rw [run_bind_of_ok env found, run_bind_of_ok env zones]
    cases firstFailure (m.script .loadLocation) railsEvents.length <;> rfl

/-- What a copy writes on its own. -/
theorem run_writeCopy (acronym : String) (railsEvents : List Event) (racing : RacingAssociation)
    (m : Machine) :
    ∃ script : Script,
      run env (RacingAssociationService.writeCopy env eventService associationService acronym
        railsEvents racing) m =
        let created := associationEffect env m.script acronym racing m.world.store
        match firstFailure (m.script .loadLocation) railsEvents.length with
        | some err => (.ok (some err), ⟨{ m.world with store := created.2 }, script⟩)
        | none =>
            let stored := eventsEffect env m.script railsEvents created.1.id created.2
            (.ok none, ⟨{ m.world with store := stored }, script⟩) := by
  obtain ⟨zoneScript, sameFaults, wrote⟩ :=
    run_writeCopy_until_create env acronym railsEvents racing m
  simp only [wrote eventService]
  set created := associationEffect env m.script acronym racing m.world.store with createdIs
  cases firstFailure (m.script .loadLocation) railsEvents.length with
  | some err => exact ⟨zoneScript, rfl⟩
  | none =>
      obtain ⟨script, -, inserted⟩ := run_create_events env
        (railsEvents.map (converted env created.1.id))
        ⟨{ m.world with store := created.2 }, zoneScript⟩
      simp only [sameFaults] at inserted
      exact ⟨script, run_bind_of_ok env inserted _⟩

/-- After its connection, a copy reads the Rails events, looks for the racing
association, and writes when it finds one. -/
theorem copyFrom_reads_then_finds (apiEventService : Api.EventService) (db : Conn)
    (acronym : String) :
    ∃ rest : List Event × Option GoError → RacingAssociation × Option GoError →
        GoM (Option GoError),
      RacingAssociationService.copyFrom env apiEventService associationService db acronym =
        .call (.findRailsEvents db) (fun read =>
          Program.bind (RacingAssociationService.find env acronym) (rest read)) ∧
      (∀ read racing, rest read (racing, none) =
        RacingAssociationService.writeCopy env apiEventService associationService acronym
          read.1 racing) ∧
      ∀ read racing err, rest read (racing, some err) = .ret (some err) := by
  refine ⟨_, rfl, ?_, ?_⟩
  · intro read racing
    rfl
  · intro read racing err
    rfl

theorem run_copyFrom (db : Conn) (acronym : String) (m : Machine)
    (own : db.url = databaseURL env acronym) :
    ∃ (conns : List Conn) (nextConn : ℕ) (script : Script),
      run env (RacingAssociationService.copyFrom env eventService associationService db acronym)
          m =
        let effect := copyFromEffect env m.script (m.world.rails db.url) acronym m.world.store
        (effect.1, ⟨{ m.world with store := effect.2, conns := conns, nextConn := nextConn },
          script⟩) := by
  obtain ⟨rest, reads, onFound, onError⟩ :=
    @copyFrom_reads_then_finds env eventService db acronym
  set given := (m.script .findRailsEvents 0).scanned (m.world.rails db.url).events with givenIs
  have read : run env (RacingAssociationService.copyFrom env eventService associationService db
      acronym) m = run env (Program.bind (RacingAssociationService.find env acronym) (rest given))
        ⟨m.world, m.script.next .findRailsEvents⟩ := by
    rw [reads]
    rfl
  have looked := run_find env acronym ⟨m.world, m.script.next .findRailsEvents⟩
  rw [read, run_bind, looked, ← own]
  simp only [copyFromEffect]
  rw [Script.next_of_ne _ (by decide), ← own]
  cases openOutcome (databaseDriver db.url) db.url (m.script .openConn) none 10 with
  | error panic => exact ⟨_, _, _, rfl⟩
  | ok failures =>
      have sameFound : racingAssociationFound env (m.script.next .findRailsEvents)
          (m.world.rails db.url) acronym =
            racingAssociationFound env m.script (m.world.rails db.url) acronym := rfl
      simp only [sameFound]
      rcases racingAssociationFound env m.script (m.world.rails db.url) acronym with
        ⟨racing, _ | err⟩
      · have wrote := run_writeCopy env acronym
          (railsEventsRead m.script (m.world.rails db.url)) racing
          ⟨m.world.opened db.url, ((m.script.next .findRailsEvents).skip .openConn
            (failures + 1)).next .firstRacingAssociation⟩
        have sameZones : (((m.script.next .findRailsEvents).skip .openConn
            (failures + 1)).next .firstRacingAssociation) .loadLocation =
              m.script .loadLocation := rfl
        have sameEvents : given.1 = railsEventsRead m.script (m.world.rails db.url) := rfl
        simp only [sameZones] at wrote
        obtain ⟨script, ran⟩ := wrote
        simp only [onFound, sameEvents, ran]
        cases firstFailure (m.script .loadLocation)
            (railsEventsRead m.script (m.world.rails db.url)).length with
        | none => exact ⟨_, _, _, rfl⟩
        | some err => exact ⟨_, _, _, rfl⟩
      · simp only [onError]
        exact ⟨_, _, _, rfl⟩

/-- **A copy on its own** ends as its effect says and leaves the store of its
effect. Beyond the store only the open connections change. -/
theorem run_copy (acronym : String) (m : Machine) :
    ∃ (conns : List Conn) (nextConn : ℕ) (script : Script),
      run env (copyRequest env acronym) m =
        let effect := copyEffect env m.script (m.world.rails (databaseURL env acronym)) acronym
          m.world.store
        (effect.1, ⟨{ m.world with store := effect.2, conns := conns, nextConn := nextConn },
          script⟩) := by
  have opened := run_for env acronym m
  simp only [RacingAssociationService.copy, copyEffect, Program.bind_eq, run_bind, opened]
  cases openOutcome (databaseDriver (databaseURL env acronym)) (databaseURL env acronym)
      (m.script .openConn) none 10 with
  | error panic => exact ⟨_, _, _, rfl⟩
  | ok failures =>
      obtain ⟨conns, nextConn, script, ran⟩ := run_copyFrom env
        ⟨m.world.nextConn, databaseURL env acronym⟩ acronym
        ⟨m.world.opened (databaseURL env acronym), m.script.skip .openConn (failures + 1)⟩ rfl
      simp only [run_deferring, ran]
      exact ⟨_, _, _, rfl⟩

end DawnPatrol.RailsDb

import DawnPatrol.Http.Handlers
import DawnPatrol.Postgres.Seed

/-!
# Failed reads of the index

The index reads the association of its host and then the events of the
association. The error of the first read becomes a panic. `EventService.Find`
drops the error of the second, and answers the rows that were scanned before
it. So the index serves a list that is too short exactly when the second read
fails before its last row (`index_serves_complete_rows_iff`).
-/

set_option autoImplicit false

namespace DawnPatrol.Http

open Foundation Go Api Postgres Execution Db

/-- A query hands over all of its rows. -/
def HandsOverAll (count : ℕ) : Fault → Prop
  | .none => True
  | .fail _ progress => count ≤ progress

/-- The events of all rows of an association. -/
def completeRows (env : Environment) (association : Association) (st : Store) : List Event :=
  (Gorm.findEvents association.id st).map (Gorm.scanEvent env.sessionOffset)

/-- `Find` returns no error only with the complete list. -/
def FindsCompletely (env : Environment) (association : Association) (m : Machine) : Prop :=
  ∀ events later, run env (eventService.find association) m = (.ok (events, none), later) →
    events = completeRows env association m.world.store

/-- With any marshaller, the index writes the complete rows of the association
that its host resolves to, or panics and writes no body. -/
def ServesCompletely (env : Environment) (r : Request) (m : Machine) : Prop :=
  ∀ eventJSON : EventJSON,
    let h : Root := ⟨associationService, eventJSON, eventService⟩
    match run env (h.serveHTTP r) m with
    | (.error _, later) => later.world.response.body = m.world.response.body
    | (.ok (), later) => ∃ association jsonOut,
        (run env (associationService.firstByHost r.host) m).1 = .ok (association, none) ∧
          eventJSON.marshal (completeRows env association m.world.store) = .ok jsonOut ∧
          later.world.response.body = m.world.response.body ++ Fmt.sprintf jsonOut

section Reads

variable {env : Environment} {m : Machine} {r : Request}

/-- A query hands over all of its rows exactly when its list is complete. -/
theorem scanned_eq_iff {α : Type} {fault : Fault} {rows : List α} :
    (fault.scanned rows).1 = rows ↔ HandsOverAll rows.length fault := by
  cases fault with
  | none => simp [Fault.scanned, HandsOverAll]
  | fail err progress => simp [Fault.scanned, HandsOverAll, List.take_eq_self_iff]

/-- A query hands over the first of its rows. -/
theorem scanned_starts_rows {α : Type} (fault : Fault) (rows : List α) :
    (fault.scanned rows).1 <+: rows := by
  cases fault with
  | none => exact List.prefix_rfl
  | fail err progress => exact List.take_prefix _ _

/-- `Find` answers the rows that were handed over, and no error. -/
theorem run_find_events {association : Association} :
    run env (eventService.find association) m =
      (.ok (((m.script .findEvents 0).scanned
          (completeRows env association m.world.store)).1, none),
        ⟨m.world, m.script.next .findEvents⟩) := rfl

theorem findsCompletely_iff (association : Association) :
    FindsCompletely env association m ↔
      ((m.script .findEvents 0).scanned (completeRows env association m.world.store)).1 =
        completeRows env association m.world.store := by
  constructor
  · exact fun complete => complete _ _ run_find_events
  · intro all events later found
    rw [run_find_events] at found
    cases found
    exact all

/-- The read of the association ends with its error, or hands over the row. -/
theorem run_firstByHost :
    (∃ association err, run env (associationService.firstByHost r.host) m =
        (.ok (association, some err), ⟨m.world, m.script.next .firstAssociation⟩) ∧
      ¬ (m.script .firstAssociation 0 = .none ∧
        ∃ row, Gorm.firstAssociation env.operator (.hostMatches r.host) {} m.world.store =
          some row)) ∨
    ∃ row, m.script .firstAssociation 0 = .none ∧
      Gorm.firstAssociation env.operator (.hostMatches r.host) {} m.world.store = some row ∧
      run env (associationService.firstByHost r.host) m =
        (.ok (Gorm.scanAssociation env.sessionOffset {} row, none),
          ⟨m.world, m.script.next .firstAssociation⟩) := by
  have ran : run env (associationService.firstByHost r.host) m =
      (.ok ((m.script .firstAssociation 0).scannedOne (Gorm.scanAssociation env.sessionOffset) {}
        (Gorm.firstAssociation env.operator (.hostMatches r.host) {} m.world.store)),
        ⟨m.world, m.script.next .firstAssociation⟩) := rfl
  rw [ran]
  cases resolved : Gorm.firstAssociation env.operator (.hostMatches r.host) {} m.world.store with
  | none =>
      rcases m.script .firstAssociation 0 with _ | ⟨err, _ | progress⟩
      · exact .inl ⟨_, _, rfl, by simp⟩
      · exact .inl ⟨_, _, rfl, by simp⟩
      · exact .inl ⟨_, _, rfl, by simp⟩
  | some row =>
      rcases m.script .firstAssociation 0 with _ | ⟨err, _ | progress⟩
      · exact .inr ⟨row, rfl, rfl, rfl⟩
      · exact .inl ⟨_, _, rfl, by simp⟩
      · exact .inl ⟨_, _, rfl, by simp⟩

/-- Once the host resolves, the index panics with the error of the marshaller or
writes what the second read has handed over. -/
theorem run_index_of_resolved (eventJSON : EventJSON) {association : Association}
    (resolved : run env (associationService.firstByHost r.host) m =
      (.ok (association, none), ⟨m.world, m.script.next .firstAssociation⟩)) :
    let h : Root := ⟨associationService, eventJSON, eventService⟩
    let handed := ((m.script .findEvents 0).scanned
      (completeRows env association m.world.store)).1
    (∃ err later, eventJSON.marshal handed = .error err ∧
        run env (h.serveHTTP r) m = (.error (.error err), later) ∧
        later.world.response.body = m.world.response.body) ∨
      ∃ jsonOut later, eventJSON.marshal handed = .ok jsonOut ∧
        run env (h.serveHTTP r) m = (.ok (), later) ∧
        later.world.response.body = m.world.response.body ++ Fmt.sprintf jsonOut := by
  intro h handed
  have listed : run env (h.findEvents r) m =
      (.ok handed, ⟨m.world, (m.script.next .firstAssociation).next .findEvents⟩) := by
    simp only [Root.findEvents, Program.bind_eq]
    rw [run_bind_of_ok env resolved]
    exact run_bind_of_ok env run_find_events _
  have written : run env (h.serveHTTP r) m = run env (h.writeEvents handed)
      ⟨m.world, (m.script.next .firstAssociation).next .findEvents⟩ :=
    run_bind_of_ok env listed _
  rw [written]
  simp only [Root.writeEvents]
  cases eventJSON.marshal handed with
  | error err => exact .inl ⟨err, _, rfl, rfl, rfl⟩
  | ok jsonOut => exact .inr ⟨jsonOut, _, rfl, rfl, rfl⟩

/-- A marshaller that writes one letter for each event. -/
def tally : EventJSON where
  marshal events := .ok (String.ofList (List.replicate events.length 'x'))

theorem sprintf_tally (count : ℕ) :
    Fmt.sprintf (String.ofList (List.replicate count 'x')) =
      String.ofList (List.replicate count 'x') := by
  rw [Fmt.sprintf_eq_self_iff, String.toList_ofList]
  intro percent
  exact absurd (List.eq_of_mem_replicate percent) (by decide)

/-- Once the host resolves, the index serves the complete rows exactly when the
second read hands them over. -/
theorem servesCompletely_of_resolved {association : Association}
    (resolved : run env (associationService.firstByHost r.host) m =
      (.ok (association, none), ⟨m.world, m.script.next .firstAssociation⟩)) :
    ServesCompletely env r m ↔
      ((m.script .findEvents 0).scanned (completeRows env association m.world.store)).1 =
        completeRows env association m.world.store := by
  set rows := completeRows env association m.world.store with rowsIs
  constructor
  · intro complete
    have tallied := complete tally
    rcases run_index_of_resolved tally resolved with
      ⟨err, later, failed, -⟩ | ⟨jsonOut, later, marshalled, ran, body⟩
    · cases failed
    · simp only [ran] at tallied
      obtain ⟨other, allOut, isOther, allMarshalled, allBody⟩ := tallied
      rw [resolved] at isOther
      cases isOther
      cases marshalled
      cases allMarshalled
      -- the two bodies count the events of the two lists
      have bodies := congrArg String.length (body.symm.trans allBody)
      simp only [← rowsIs, sprintf_tally, String.length_append, String.length_ofList,
        List.length_replicate] at bodies
      exact (scanned_starts_rows _ rows).eq_of_length (by omega)
  · intro all eventJSON
    rcases run_index_of_resolved eventJSON resolved with
      ⟨err, later, -, ran, body⟩ | ⟨jsonOut, later, marshalled, ran, body⟩
    · simp only [ran, body]
    · simp only [ran]
      rw [← rowsIs, all] at marshalled
      exact ⟨association, jsonOut, congrArg Prod.fst resolved, marshalled, body⟩

end Reads

/-- **A failed read is not served as a shorter list** exactly when it is the read
of the association that fails or finds none, or the read of the events hands
over all rows. `Find` returns no error with a shorter list in the same cases. -/
theorem index_serves_complete_rows_iff (env : Environment) (r : Request) (m : Machine) :
    (ServesCompletely env r m ↔
      ∀ row, m.script .firstAssociation 0 = .none →
        Gorm.firstAssociation env.operator (.hostMatches r.host) {} m.world.store = some row →
          HandsOverAll (Gorm.findEvents row.id m.world.store).length
            (m.script .findEvents 0)) ∧
      ∀ association, FindsCompletely env association m ↔
        HandsOverAll (Gorm.findEvents association.id m.world.store).length
          (m.script .findEvents 0) := by
  have handsOver : ∀ association : Association,
      ((m.script .findEvents 0).scanned (completeRows env association m.world.store)).1 =
          completeRows env association m.world.store ↔
        HandsOverAll (Gorm.findEvents association.id m.world.store).length
          (m.script .findEvents 0) := by
    intro association
    rw [scanned_eq_iff, completeRows, List.length_map]
  refine ⟨?_, fun association => (findsCompletely_iff association).trans (handsOver association)⟩
  rcases @run_firstByHost env m r with ⟨association, err, ran, unresolved⟩ |
    ⟨row, free, found, ran⟩
  · refine iff_of_true (fun eventJSON => ?_)
      fun row free found => absurd ⟨free, row, found⟩ unresolved
    have panics : run env (Root.serveHTTP ⟨associationService, eventJSON, eventService⟩ r) m =
        (.error (.error err), ⟨m.world, m.script.next .firstAssociation⟩) := by
      simp only [Root.serveHTTP, Root.findEvents, Program.bind_eq, Program.bind_assoc]
      rw [run_bind_of_ok env ran]
      rfl
    simp only [panics]
  · rw [servesCompletely_of_resolved ran, handsOver]
    constructor
    · intro all other _ otherFound
      cases found.symm.trans otherFound
      exact all
    · exact fun all => all row free found

/-- **A read of the events that fails before its first row** is served as an empty
list, although four events are stored. -/
theorem failed_read_is_served :
    ¬ ∀ (env : Environment) (r : Request) (m : Machine), ServesCompletely env r m := by
  intro serves
  let m : Machine := ⟨.withEvent .seeded "CBRA", .failing .findEvents⟩
  have stored : Gorm.firstAssociation Environment.plain.operator
      (.hostMatches "cbra.local:8080") {} .seeded = some seededAssociation := by decide
  rcases @run_firstByHost .plain m { host := "cbra.local:8080" } with
    ⟨association, err, -, unresolved⟩ | ⟨row, -, found, ran⟩
  · exact unresolved ⟨rfl, seededAssociation, stored⟩
  · cases Option.some.inj (stored.symm.trans found)
    exact absurd ((servesCompletely_of_resolved ran).mp (serves .plain _ m)) (by decide)

end DawnPatrol.Http

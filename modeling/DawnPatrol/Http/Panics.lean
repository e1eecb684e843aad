import DawnPatrol.Http.Handlers
import DawnPatrol.RailsDb.CopyEffect

/-!
# Panics of the handlers

The recovery around a handler turns a panic into a response only when the
value of the panic is an error. The index panics with errors and the status
never panics. The test handler panics with a string, and so does a copy that
cannot connect. `panics_become_500_iff` puts this together for every route: its
panics end as a 500 exactly when the route is not that of the test handler
and, if it is that of the copy, both of its connections are opened.
-/

set_option autoImplicit false

namespace DawnPatrol.Http

open Foundation Go Api Execution Db RailsDb

variable {env : Environment}

/-! ## The panics of the index -/

/-- The index finds its events or panics with an error, and the world is as it
was. -/
theorem run_findEvents (r : Request) (m : Machine) :
    ∃ (outcome : Except GoError (List Event)) (script : Script),
      run env ((newRoot associationService eventService).findEvents r) m =
        (outcome.mapError .error, ⟨m.world, script⟩) := by
  simp only [newRoot, Root.findEvents, associationService, Db.AssociationService.firstByHost,
    Program.bind_eq, Program.perform_bind, run_call]
  rcases resolved : (handle env (.firstAssociation (.hostMatches r.host) {}) m).1 with
    ⟨association, _ | err⟩
  · exact ⟨.ok _, _, rfl⟩
  · exact ⟨.error err, _, rfl⟩

/-- A panic of the index is an error, and comes before anything is answered. -/
theorem panic_of_index {r : Request} {m later : Machine} {panic : PanicValue}
    (panics : run env ((newRoot associationService eventService).serveHTTP r) m =
      (.error panic, later)) :
    panic.isError = true ∧ later.world.response = m.world.response := by
  obtain ⟨outcome, script, listed⟩ := @run_findEvents env r m
  simp only [Root.serveHTTP, Program.bind_eq, run_bind, listed] at panics
  cases outcome with
  | error err =>
      cases panics
      exact ⟨rfl, rfl⟩
  | ok events =>
      simp only [Except.mapError, Root.writeEvents] at panics
      cases marshalled : (newRoot associationService eventService).eventJSON.marshal events with
      | error err =>
          rw [marshalled] at panics
          cases panics
          exact ⟨rfl, rfl⟩
      | ok jsonOut =>
          rw [marshalled] at panics
          cases panics

/-! ## The panics of a copy -/

/-- Both connections of a copy are opened: one of ten attempts succeeds, and one
of the ten that come after it. -/
def Connects (faults : ℕ → Fault) : Prop :=
  ∃ first < 10, faults first = .none ∧ (∀ n < first, faults n ≠ .none) ∧
    ∃ second < 10, faults (second + (first + 1)) = .none

/-- Ten attempts open a connection exactly when one of them meets no fault. -/
theorem exists_openOutcome_iff (driver url : String) {faults : ℕ → Fault} :
    (∃ failures, openOutcome driver url faults none 10 = .ok failures) ↔
      ∃ n < 10, faults n = .none := by
  classical
  constructor
  · rintro ⟨failures, opened⟩
    obtain ⟨below, free, -⟩ := openOutcome_eq_ok.mp opened
    exact ⟨failures, below, free⟩
  · intro succeeds
    obtain ⟨below, free⟩ := Nat.find_spec succeeds
    refine ⟨Nat.find succeeds, openOutcome_eq_ok.mpr ⟨below, free, fun n earlier isFree => ?_⟩⟩
    exact Nat.find_min succeeds earlier ⟨earlier.trans below, isFree⟩

/-- A copy connects exactly when both of its calls of `OpenURL` succeed. -/
theorem connects_iff (driver url : String) {faults : ℕ → Fault} :
    Connects faults ↔ ∃ failures, openOutcome driver url faults none 10 = .ok failures ∧
      ∃ more, openOutcome driver url (fun n => faults (n + (failures + 1))) none 10 =
        .ok more := by
  have second : ∀ failures,
      (∃ more, openOutcome driver url (fun n => faults (n + (failures + 1))) none 10 = .ok more) ↔
        ∃ more < 10, faults (more + (failures + 1)) = .none :=
    fun failures => exists_openOutcome_iff driver url
  simp only [second]
  simp only [Connects, openOutcome_eq_ok, and_assoc]

/-- **A copy panics** exactly when it cannot connect, and the value of its panic
is a string. -/
theorem copyEffect_panics (env : Environment) (script : Script) (rails : Rails.RailsDatabase)
    (acronym : String) (st : Postgres.Store) :
    (Connects (script .openConn) ∧ ∃ err, (copyEffect env script rails acronym st).1 = .ok err) ∨
      (¬ Connects (script .openConn) ∧ ∃ panic, panic.isError = false ∧
        (copyEffect env script rails acronym st).1 = .error panic) := by
  set url := databaseURL env acronym with urlIs
  rw [connects_iff (databaseDriver url) url]
  simp only [copyEffect, copyFromEffect, ← urlIs, Script.skip_kind]
  cases first : openOutcome (databaseDriver url) url (script .openConn) none 10 with
  | error panic =>
      refine .inr ⟨?_, panic, openOutcome_panic (.inl (by decide)) first, rfl⟩
      rintro ⟨failures, opened, -⟩
      cases opened
  | ok failures =>
      cases second : openOutcome (databaseDriver url) url
          (fun n => script .openConn (n + (failures + 1))) none 10 with
      | error panic =>
          refine .inr ⟨?_, panic, openOutcome_panic (.inl (by decide)) second, ?_⟩
          swap
          · simp only [second]
          rintro ⟨_, opened, more, again⟩
          cases opened
          rw [second] at again
          cases again
      | ok more =>
          refine .inl ⟨⟨failures, rfl, more, second⟩, ?_⟩
          simp only [second]
          rcases racingAssociationFound env (script.skip .openConn (failures + 1)) rails
            acronym with ⟨racing, _ | err⟩
          · cases firstFailure (script.skip .openConn (failures + 1) .loadLocation)
              (railsEventsRead (script.skip .openConn (failures + 1)) rails).length with
            | none => exact ⟨none, rfl⟩
            | some err => exact ⟨some err, rfl⟩
          · exact ⟨some err, rfl⟩

/-- A panic of a copy request is an error exactly when the copy connects, and
comes before anything is answered. -/
theorem panic_of_copy {r : Request} {m later : Machine} {panic : PanicValue}
    (panics : run env ((Copy.mk (racingAssociationService env)).serveHTTP r) m =
      (.error panic, later)) :
    (panic.isError = true ↔ Connects (m.script .openConn)) ∧
      later.world.response = m.world.response := by
  by_cases named : r.postFormValue "association" = ""
  · simp only [Copy.serveHTTP, if_pos named] at panics
    cases panics
  · obtain ⟨conns, nextConn, script, ran⟩ := @run_copy_serveHTTP env r named m
    rw [ran] at panics
    rcases copyEffect_panics env m.script
      (m.world.rails (databaseURL env (r.postFormValue "association")))
      (r.postFormValue "association") m.world.store with
      ⟨connects, err, ends⟩ | ⟨unconnected, value, isString, ends⟩
    · simp only [ends] at panics
      cases err with
      | none => cases panics
      | some err =>
          cases panics
          exact ⟨iff_of_true rfl connects, rfl⟩
    · simp only [ends] at panics
      cases panics
      exact ⟨iff_of_false (by simp [isString]) unconnected, rfl⟩

/-- A named copy that cannot connect panics. -/
theorem copy_panics {r : Request} {m : Machine} (named : r.postFormValue "association" ≠ "")
    (unconnected : ¬ Connects (m.script .openConn)) :
    ∃ panic later, run env ((Copy.mk (racingAssociationService env)).serveHTTP r) m =
      (.error panic, later) := by
  obtain ⟨conns, nextConn, script, ran⟩ := @run_copy_serveHTTP env r named m
  rcases copyEffect_panics env m.script
    (m.world.rails (databaseURL env (r.postFormValue "association")))
    (r.postFormValue "association") m.world.store with ⟨connects, -⟩ | ⟨-, panic, -, ends⟩
  · exact absurd connects unconnected
  · exact ⟨panic, _, ran.trans (Prod.ext (congrArg copyEnding ends) rfl)⟩

/-! ## The panics of every route -/

/-- The requests whose panics are errors: none of the test handler, and those of
the copy that are named and connect. -/
def PanicsWithErrors (route : Route) (r : Request) (m : Machine) : Prop :=
  route.path ≠ "/panic" ∧ (route.path = "/rails/copy" → r.postFormValue "association" ≠ "" →
    Connects (m.script .openConn))

section Routes

variable {newRelicApp : Bool} {route : Route} {r : Request} {m : Machine}

/-- A panic of a route comes before anything is answered, and is an error for the
requests whose panics are. -/
theorem panic_of_route (routed : route ∈ routes (muxConfig env newRelicApp))
    {panic : PanicValue} {later : Machine}
    (panics : run env (route.handler r) m = (.error panic, later)) :
    (PanicsWithErrors route r m → panic.isError = true) ∧
      later.world.response = m.world.response := by
  simp only [routes, muxConfig, List.mem_cons, List.not_mem_nil, or_false] at routed
  rcases routed with rfl | rfl | rfl | rfl
  · obtain ⟨isError, kept⟩ := panic_of_index panics
    exact ⟨fun _ => isError, kept⟩
  · cases panics
    exact ⟨fun errors => absurd rfl errors.1, rfl⟩
  · obtain ⟨isError, kept⟩ := panic_of_copy panics
    refine ⟨fun errors => isError.mpr (errors.2 rfl ?_), kept⟩
    intro unnamed
    simp only [Copy.serveHTTP, if_pos unnamed] at panics
    cases panics
  · cases panics

/-- The other requests panic with a value that is not an error. -/
theorem panics_of_route (routed : route ∈ routes (muxConfig env newRelicApp))
    (strings : ¬ PanicsWithErrors route r m) :
    ∃ panic later, run env (route.handler r) m = (.error panic, later) ∧
      panic.isError = false := by
  simp only [routes, muxConfig, List.mem_cons, List.not_mem_nil, or_false] at routed
  rcases routed with rfl | rfl | rfl | rfl
  · exact absurd ⟨by decide, fun path => absurd path (by decide)⟩ strings
  · exact ⟨_, _, rfl, rfl⟩
  · simp only [PanicsWithErrors] at strings
    push Not at strings
    obtain ⟨-, named, unconnected⟩ := strings (by decide)
    obtain ⟨panic, later, panics⟩ := @copy_panics env r m named unconnected
    refine ⟨panic, later, panics, ?_⟩
    exact Bool.eq_false_iff.mpr fun isError => unconnected ((panic_of_copy panics).1.mp isError)
  · exact absurd ⟨by decide, fun path => absurd path (by decide)⟩ strings

end Routes

/-- **Every panic of a request becomes a 500** exactly when the route is not that of
the test handler and, for a copy with a name, both connections are opened. -/
theorem panics_become_500_iff (env : Environment) (newRelicApp : Bool) {route served : Route}
    (wrapped : (route, served) ∈
      (routes (muxConfig env newRelicApp)).zip (newMux (muxConfig env newRelicApp)))
    (r : Request) {m : Machine} (unanswered : m.world.response.status = none) :
    (∀ panic later, run env (route.handler r) m = (.error panic, later) →
      ∃ after, run env (served.handler r) m = (.ok (), after) ∧
        after.world.response.finalStatus = 500) ↔
      PanicsWithErrors route r m := by
  obtain ⟨routed, servedIs⟩ := wrapped_of_mem_zip wrapped
  simp only [servedIs, newInstrumentedHandler_eq]
  constructor
  · intro recovered
    by_contra strings
    obtain ⟨panic, later, panics, isString⟩ := panics_of_route routed strings
    obtain ⟨after, returned, -⟩ := recovered panic later panics
    obtain ⟨ended, left, -⟩ := run_recoveryHandler panics
    rw [left, isString] at returned
    cases returned
  · intro errors panic later panics
    obtain ⟨isError, kept⟩ := panic_of_route routed panics
    obtain ⟨after, returned, answered⟩ := run_recoveryHandler panics
    rw [if_pos (isError errors)] at returned
    refine ⟨after, returned, ?_⟩
    rw [answered (isError errors), kept, unanswered]
    rfl

/-- The index for a host that no association has becomes a 500. -/
theorem unknown_host_becomes_500 :
    ∃ after, run .plain (newInstrumentedHandler true
        (newRoot associationService eventService).serveHTTP { host := "usacycling.org" })
      ⟨.withEvent .empty "CBRA", .clear⟩ = (.ok (), after) ∧
        after.world.response.finalStatus = 500 :=
  (panics_become_500_iff .plain true (List.mem_cons_self ..) { host := "usacycling.org" }
    (rfl : (⟨.withEvent .empty "CBRA", .clear⟩ : Machine).world.response.status = none)).mpr
    ⟨by decide, fun path => absurd path (by decide)⟩ (.error .recordNotFound) _ rfl

/-- **The panic of the test handler** leaves the instrumented handler. -/
theorem test_panic_leaves :
    ¬ ∀ (env : Environment) (newRelicApp : Bool) (route served : Route) (r : Request)
      (m : Machine),
      (route, served) ∈
        (routes (muxConfig env newRelicApp)).zip (newMux (muxConfig env newRelicApp)) →
      m.world.response.status = none →
      ∀ panic later, run env (route.handler r) m = (.error panic, later) →
        ∃ after, run env (served.handler r) m = (.ok (), after) ∧
          after.world.response.finalStatus = 500 := by
  intro recovered
  obtain ⟨after, returned, -⟩ := recovered .plain false ⟨"GET", "/panic", TestPanic.serveHTTP⟩
    ⟨"GET", "/panic", newInstrumentedHandler false TestPanic.serveHTTP⟩ {}
    ⟨.withEvent .empty "CBRA", .clear⟩ (List.mem_cons_of_mem _ (List.mem_cons_self ..)) rfl
    (.string "Parsing failed") _ rfl
  cases returned

end DawnPatrol.Http

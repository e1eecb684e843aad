import DawnPatrol.Http.Handlers

/-!
# The body of the index

`Root.ServeHTTP` hands the JSON of the events to `fmt.Fprintf` as the format.
So the body is what was marshalled, and is read back as the events, exactly
when no string of the events has a percent sign and the offsets of their times
are written in full (`index_serves_events_iff`).
-/

set_option autoImplicit false

namespace DawnPatrol.Http

open Foundation Go Api Execution

/-- The index writes the JSON of the events it finds as a format. -/
theorem body_of_index {env : Environment} {h : Root} {r : Request} {m later last : Machine}
    {association : Association} {events : List Event} {jsonOut : String}
    (resolved : run env (h.associationService.firstByHost r.host) m =
      (.ok (association, none), later))
    (found : run env (h.eventService.find association) later = (.ok (events, none), last))
    (marshalled : h.eventJSON.marshal events = .ok jsonOut)
    (unwritten : last.world.response.body = "") :
    (run env (h.serveHTTP r) m).2.world.response.body = Fmt.sprintf jsonOut := by
  have listed : run env (h.findEvents r) m = (.ok events, last) := by
    simp only [Root.findEvents, Program.bind_eq]
    rw [run_bind_of_ok env resolved, run_bind_of_ok env found]
    rfl
  have written : run env (h.serveHTTP r) m = run env (h.writeEvents events) last :=
    run_bind_of_ok env listed _
  rw [written, Root.writeEvents, marshalled]
  change last.world.response.body ++ Fmt.sprintf jsonOut = _
  rw [unwritten, String.empty_append]

/-- **The index serves exactly the events** it finds when none of their strings has
a percent sign and all of their times have offsets that are written in full,
and never otherwise. -/
theorem index_serves_events_iff (env : Environment) (as : AssociationService) (es : EventService)
    (r : Request) {m later last : Machine} {association : Association} {events : List Event}
    {jsonOut : String}
    (resolved : run env (as.firstByHost r.host) m = (.ok (association, none), later))
    (found : run env (es.find association) later = (.ok (events, none), last))
    (marshalled : defaultEventJSON.marshal events = .ok jsonOut)
    (unwritten : last.world.response.body = "") :
    let body := (run env ((newRoot as es).serveHTTP r) m).2.world.response.body
    (body = jsonOut ∧ unmarshal body = some events) ↔
      (∀ e ∈ events, ∀ s ∈ texts e, '%' ∉ s.toList) ∧
        ∀ e ∈ events, ∀ t ∈ times e, InMinutes t.offset := by
  intro body
  have written : body = Fmt.sprintf jsonOut :=
    @body_of_index env (newRoot as es) r m later last association events jsonOut resolved found
      marshalled unwritten
  obtain ⟨marshals, rfl⟩ : (∀ e ∈ events, ∀ t ∈ times e, Marshals t) ∧
      eventsText events = jsonOut := by
    simp only [defaultEventJSON, marshal] at marshalled
    split at marshalled
    · rename_i marshals
      exact ⟨marshals, Except.ok.inj marshalled⟩
    · cases marshalled
  have plain : body = eventsText events ↔ ∀ e ∈ events, ∀ s ∈ texts e, '%' ∉ s.toList := by
    rw [written, Fmt.sprintf_eq_self_iff, percent_mem_eventsText]
    push Not
    rfl
  constructor
  · rintro ⟨same, read⟩
    rw [same] at read
    exact ⟨plain.mp same, (unmarshal_eventsText marshals).mp read⟩
  · rintro ⟨noPercent, offsets⟩
    have same := plain.mpr noPercent
    exact ⟨same, same ▸ (unmarshal_eventsText marshals).mpr offsets⟩

/-- Services that find one event. -/
def findingOne (e : Event) : AssociationService × EventService :=
  ({ Db.associationService with firstByHost := fun _ => return ({}, none) },
    { Db.eventService with find := fun _ => return ([e], none) })

/-- An event without a percent sign is served. -/
theorem index_serves_plain_event :
    let services := findingOne { name := "Gravel" }
    let body := (run .plain ((newRoot services.1 services.2).serveHTTP {})
      ⟨.withEvent .empty "CBRA", .clear⟩).2.world.response.body
    body = eventsText [{ name := "Gravel" }] ∧ unmarshal body = some [{ name := "Gravel" }] :=
  (index_serves_events_iff .plain (findingOne { name := "Gravel" }).1
    (findingOne { name := "Gravel" }).2 {}
    (rfl : _ = (_, (⟨.withEvent .empty "CBRA", .clear⟩ : Machine))) rfl rfl rfl).mpr (by decide)

/-- **An event with a percent sign in its name** is not served as it was
marshalled. -/
theorem index_garbles_percent :
    ¬ ∀ (env : Environment) (as : AssociationService) (es : EventService) (r : Request)
      (m later last : Machine) (association : Association) (events : List Event)
      (jsonOut : String),
      run env (as.firstByHost r.host) m = (.ok (association, none), later) →
      run env (es.find association) later = (.ok (events, none), last) →
      defaultEventJSON.marshal events = .ok jsonOut → last.world.response.body = "" →
        let body := (run env ((newRoot as es).serveHTTP r) m).2.world.response.body
        body = jsonOut ∧ unmarshal body = some events := by
  intro serves
  let services := findingOne { name := "100% Gravel" }
  let m : Machine := ⟨.withEvent .empty "CBRA", .clear⟩
  have served := (serves .plain services.1 services.2 {} m m m {} [{ name := "100% Gravel" }]
    (eventsText [{ name := "100% Gravel" }]) rfl rfl rfl rfl).1
  rw [@body_of_index .plain (newRoot services.1 services.2) {} m m m {}
    [{ name := "100% Gravel" }] (eventsText [{ name := "100% Gravel" }]) rfl rfl rfl rfl,
    Fmt.sprintf_eq_self_iff, percent_mem_eventsText] at served
  exact served (by decide)

end DawnPatrol.Http

import DawnPatrol.Server.Replies

/-!
# Where stored rows come from

The server never updates or removes a row, and adds one only for a visit that
copies: an association under the acronym that was asked for, and events of
associations with that acronym (`rows_are_traced`).
-/

set_option autoImplicit false

namespace DawnPatrol.Server

open Foundation Go Api Postgres Execution Db Rails RailsDb Http Requests

variable (env : Environment) (newRelicApp : Bool) (c : Circumstances)

/-- A fact about the store that the run brings about by a call of the visit. -/
def BroughtAbout (first : Pool Call Call.Answer PanicValue Unit ServerWorld Visit)
    (actions : List (Action Call Visit))
    (last : Pool Call Call.Answer PanicValue Unit ServerWorld Visit) (visit : Visit)
    (fact : Store → Prop) : Prop :=
  ∃ pool call next, Pool.Turn (serverRules env newRelicApp c)
    (fun pool => fact pool.world.shared.store) first actions last pool (.called visit call) next

/-- The run keeps the rows that it began with, and adds the others while it serves
visits that copy their acronyms. -/
structure Traced (first : Pool Call Call.Answer PanicValue Unit ServerWorld Visit)
    (actions : List (Action Call Visit))
    (last : Pool Call Call.Answer PanicValue Unit ServerWorld Visit) : Prop where
  kept : (∀ row ∈ first.world.shared.store.associations,
      row ∈ last.world.shared.store.associations) ∧
    ∀ event ∈ first.world.shared.store.events, event ∈ last.world.shared.store.events
  associations : ∀ row ∈ last.world.shared.store.associations,
    row ∈ first.world.shared.store.associations ∨
      ∃ visit, visit.copies = some row.acronym ∧
        BroughtAbout env newRelicApp c first actions last visit (row ∈ ·.associations)
  events : ∀ event ∈ last.world.shared.store.events,
    event ∈ first.world.shared.store.events ∨
      ∃ row ∈ last.world.shared.store.associations, row.id = event.associationID ∧
        ∃ visit, visit.copies = some row.acronym ∧
          BroughtAbout env newRelicApp c first actions last visit (event ∈ ·.events)

section Traced

variable {env newRelicApp c}
  {pool next first last : Pool Call Call.Answer PanicValue Unit ServerWorld Visit}
  {action : Action Call Visit} {actions : List (Action Call Visit)}

/-- No step of the server updates or removes a row. -/
theorem rows_stay (pledged : Pool.Pledged (serverContract env newRelicApp c)
      (promises env newRelicApp c).post first) (below : IDsBelow first.world.shared.store)
    (run : Pool.Run (serverRules env newRelicApp c) first actions last) :
    (∀ row ∈ first.world.shared.store.associations,
        row ∈ last.world.shared.store.associations) ∧
      ∀ event ∈ first.world.shared.store.events, event ∈ last.world.shared.store.events := by
  refine (run.keepsPledges
    (fun s => IDsBelow s.shared.store ∧
      (∀ row ∈ first.world.shared.store.associations, row ∈ s.shared.store.associations) ∧
        ∀ event ∈ first.world.shared.store.events, event ∈ s.shared.store.events)
    (fun visit _ {before after} step holds => ⟨(step.grown holds.1).below, ?_⟩) ?_
    (fun pool holds visit program starts =>
      (startsWell holds.1 visit program starts).toStartsSafely)
    pledged ⟨below, fun _ => id, fun _ => id⟩ (fun _ _ => trivial) fun _ _ => trivial).2.2
  · rcases step.store with same | ⟨acronym, -, step⟩
    · rw [same]
      exact holds.2
    · exact ⟨fun row member => step.keeps.1 row (holds.2.1 row member),
        fun event member => step.keeps.2 event (holds.2.2 event member)⟩
  · rintro before after ⟨rails, -, rfl⟩ holds
    exact holds

/-- **A step that changes the store** is a call of a visit that copies. -/
theorem copies_of_changed (pledged : Pool.Pledged (serverContract env newRelicApp c)
      (promises env newRelicApp c).post pool)
    (step : Pool.Step (serverRules env newRelicApp c) pool action next)
    (changed : next.world.shared.store ≠ pool.world.shared.store) :
    ∃ visit call acronym, action = .called visit call ∧ visit.copies = some acronym ∧
      StoreStep env False acronym pool.world.shared.store next.world.shared.store := by
  cases step with
  | call answered =>
      obtain ⟨-, kept, -⟩ := pledged.call answered
      rcases kept.store with same | ⟨acronym, copies, step⟩
      · exact absurd same changed
      · exact ⟨_, _, acronym, rfl, copies, step⟩
  | start allowed => exact absurd rfl changed
  | outside altered =>
      obtain ⟨rails, -, rfl⟩ := altered
      exact absurd rfl changed

/-- An association is added by a copy of its acronym. -/
theorem copies_of_added_association {acronym : String} {st next : Store} {row : AssociationRow}
    (step : StoreStep env False acronym st next) (absent : row ∉ st.associations)
    (stored : row ∈ next.associations) : row.acronym = acronym := by
  cases step with
  | addedAssociation fresh copied drawn =>
      rcases List.mem_append.mp stored with old | new
      · exact absurd old absent
      · obtain ⟨racing, isRow⟩ := copied
        rw [List.mem_singleton.mp new, isRow]
        rfl
  | _ => exact absurd stored absent

/-- An event is added by a copy of the acronym of its association, which is stored. -/
theorem copies_of_added_event {acronym : String} {st next : Store} {event : EventRow}
    (step : StoreStep env False acronym st next) (absent : event ∉ st.events)
    (stored : event ∈ next.events) : Owned acronym event.associationID next := by
  cases step with
  | addedEvent fresh owned owner drawn isNew =>
      rcases List.mem_append.mp stored with old | new
      · exact absurd old absent
      · rw [List.mem_singleton.mp new]
        exact owner
  | _ => exact absurd stored absent

end Traced

/-- **Every row is traced to a request.** In a run of the server from a new database,
all rows that it began with stay as they are. Every other row is added by a call of
a visit, which is served then and copies the acronym of the row, or that of the
association of the row. -/
theorem rows_are_traced (env : Environment) (newRelicApp : Bool) (c : Circumstances)
    {first last : Pool Call Call.Answer PanicValue Unit ServerWorld Visit}
    {actions : List (Action Call Visit)} (new : NewServer first)
    (run : Pool.Run (serverRules env newRelicApp c) first actions last) :
    Traced env newRelicApp c first actions last := by
  obtain ⟨promising, -⟩ := keepsPromises new (.refl _ : Pool.Run _ first [] first)
  refine ⟨rows_stay promising.toPledged new.below run, fun row stored => ?_,
    fun event stored => ?_⟩
  · by_cases old : row ∈ first.world.shared.store.associations
    · exact .inl old
    obtain ⟨pool, action, next, turn⟩ :=
      run.turns (row ∈ ·.world.shared.store.associations) old stored
    have moment := turn
    obtain ⟨⟨earlier, later, -, toPool, -⟩, step, absent, present⟩ := moment
    obtain ⟨visit, call, acronym, rfl, copies, copied⟩ :=
      copies_of_changed (keepsPromises new toPool).1.toPledged step
        fun same => absent (same ▸ present)
    have isAcronym := copies_of_added_association copied absent present
    exact .inr ⟨visit, isAcronym ▸ copies, pool, call, next, turn⟩
  · by_cases old : event ∈ first.world.shared.store.events
    · exact .inl old
    obtain ⟨pool, action, next, turn⟩ :=
      run.turns (event ∈ ·.world.shared.store.events) old stored
    have moment := turn
    obtain ⟨⟨earlier, later, -, toPool, onward⟩, step, absent, present⟩ := moment
    obtain ⟨visit, call, acronym, rfl, copies, copied⟩ :=
      copies_of_changed (keepsPromises new toPool).1.toPledged step
        fun same => absent (same ▸ present)
    obtain ⟨row, isStored, isAcronym, owns⟩ := copies_of_added_event copied absent present
    -- the association is still there when the run ends
    obtain ⟨stillPromising, below⟩ := keepsPromises new (toPool.trans (.step step (.refl next)))
    have kept := (rows_stay stillPromising.toPledged below onward).1 row isStored
    exact .inr ⟨row, kept, owns, visit, isAcronym ▸ copies, pool, call, next, turn⟩

/-- A copy to the seeded store. -/
def copyVisit (acronym : String) : Visit where
  id := 0
  request := {
    postFormValue := fun key => if key = "association" then acronym else ""
    method := "POST"
    path := "/rails/copy".toList }
  origin := .seeded

/-- A copy to an empty store adds an association and its event. -/
theorem copied_rows_are_traced :
    let served := servedAlone .plain { copyVisit "ATRA" with origin := .empty }
      (.withEvent .empty "ATRA")
    (served.2.store.associations.map AssociationRow.acronym = ["ATRA"] ∧
        served.2.store.events.length = 1) ∧
      ∃ actions, Traced .plain true (.calm fun _ => .ofAssociation "ATRA" [] .nil)
        ⟨.of (.withEvent .empty "ATRA"), []⟩ actions
        ⟨.of served.2, [({ copyVisit "ATRA" with origin := .empty }, Pool.ended served.1)]⟩ := by
  intro served
  refine ⟨⟨by decide, by decide⟩, ?_⟩
  obtain ⟨actions, alone⟩ := run_servedAlone .plain (.calm fun _ => .ofAssociation "ATRA" [] .nil)
    { copyVisit "ATRA" with origin := .empty } (.withEvent .empty "ATRA") rfl rfl rfl
  exact ⟨actions, rows_are_traced .plain true (.calm fun _ => .ofAssociation "ATRA" [] .nil)
    ⟨.inl rfl, rfl⟩ alone⟩

end DawnPatrol.Server

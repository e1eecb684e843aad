import DawnPatrol.Api.Services

/-!
# The event service

The creation and the lookup of events of package `db`. `Create` inserts the
events one by one and stops with an error at the first that names no
association. The errors of its inserts, and of the query of `Find`, are not
looked at.

The store that `Create` leaves is a function of the faults of its inserts
(`createEffect`, `run_create_events`).
-/

set_option autoImplicit false

namespace DawnPatrol.Db

open Foundation Go Api Postgres Execution

namespace EventService

/-- Creates events. -/
def create : List Event → GoM (Option GoError)
  | [] => return none
  | event :: events => do
      if event.associationID = 0 then
        return some (.other "'AssociationID' is required")
      let _ ← perform (.createEvent event)
      create events

/-- Finds all events of an association. -/
def find (association : Association) : GoM (List Event × Option GoError) := do
  let (events, _) ← perform (.findEvents association.id)
  return (events, none)

end EventService

/-- The event service of the program. -/
def eventService : EventService where
  create := EventService.create
  find := EventService.find

/-! ## What `Create` does -/

/-- The answer and the store of `Create`, under the faults of its inserts. -/
def createEffect : (ℕ → Fault) → List Event → Store → Option GoError × Store
  | _, [], st => (none, st)
  | faults, event :: events, st =>
      if event.associationID = 0 then (some (.other "'AssociationID' is required"), st)
      else createEffect (fun n => faults (n + 1)) events (createEvent (faults 0) event st).2

/-- The rows that the inserts of some events add, when `taken` are the ids of
the stored events and `next` is the next one of the sequence. An insert that
fails late has drawn an id, and so has one whose id is taken. -/
def insertedRows (taken : List ℤ) : (ℕ → Fault) → ℤ → List Event → List EventRow
  | _, _, [] => []
  | faults, next, event :: events =>
      let later := fun n => faults (n + 1)
      match faults 0 with
      | .none =>
          if next ∈ taken then insertedRows taken later (next + 1) events
          else Gorm.eventRow event next event.associationID ::
            insertedRows taken later (next + 1) events
      | .fail _ progress =>
          insertedRows taken later (if progress < 2 then next else next + 1) events

/-- Whether an insert of an event draws an id. -/
def drawsID : Fault → Bool
  | .none => true
  | .fail _ progress => 2 ≤ progress

/-- The number of ids that the first inserts of events draw. -/
def idsDrawn : (ℕ → Fault) → ℕ → ℕ
  | _, 0 => 0
  | faults, count + 1 =>
      (if drawsID (faults 0) then 1 else 0) + idsDrawn (fun n => faults (n + 1)) count

/-- **The rows the inserts add** are those of the events whose insert does not
fail and draws an id that is not taken. -/
theorem mem_insertedRows {taken : List ℤ} {faults : ℕ → Fault} {next : ℤ} {events : List Event}
    {row : EventRow} :
    row ∈ insertedRows taken faults next events ↔
      ∃ i event, events[i]? = some event ∧ faults i = .none ∧
        next + idsDrawn faults i ∉ taken ∧
        row = Gorm.eventRow event (next + idsDrawn faults i) event.associationID := by
  induction events generalizing faults next with
  | nil => simp [insertedRows]
  | cons event events ih =>
      -- the events after the first, with the ids the first insert leaves them
      have later : ∀ drawn : ℤ, drawn = next + (if drawsID (faults 0) then 1 else 0 : ℕ) →
          (row ∈ insertedRows taken (fun n => faults (n + 1)) drawn events ↔
            ∃ i event', (event :: events)[i + 1]? = some event' ∧ faults (i + 1) = .none ∧
              next + idsDrawn faults (i + 1) ∉ taken ∧
              row = Gorm.eventRow event' (next + idsDrawn faults (i + 1))
                event'.associationID) := by
        rintro drawn rfl
        simp only [ih, List.getElem?_cons_succ, idsDrawn, Nat.cast_add, add_assoc]
      have split : ∀ property : ℕ → Event → Prop,
          (∃ i event', (event :: events)[i]? = some event' ∧ property i event') ↔
            property 0 event ∨
              ∃ i event', (event :: events)[i + 1]? = some event' ∧ property (i + 1) event' := by
        intro property
        constructor
        · rintro ⟨_ | i, event', there, holds⟩
          · have same : event = event' := by simpa using there
            exact .inl (same ▸ holds)
          · exact .inr ⟨i, event', there, holds⟩
        · rintro (holds | ⟨i, event', there, holds⟩)
          · exact ⟨0, event, rfl, holds⟩
          · exact ⟨i + 1, event', there, holds⟩
      rw [split]
      simp only [insertedRows]
      cases first : faults 0 with
      | fail err progress =>
          simp only [reduceCtorEq, false_and, false_or]
          refine later _ ?_
          by_cases early : progress < 2 <;> simp [first, drawsID, early]
      | none =>
          have rest := later (next + 1) (by simp [first, drawsID])
          by_cases isTaken : next ∈ taken
          · simp [isTaken, idsDrawn, rest]
          · simp [isTaken, idsDrawn, rest]

/-- An event without an id or a nested association, that belongs to `owner`. -/
structure Plain (owner : ℤ) (event : Event) : Prop where
  id : event.id = 0
  association : event.association = {}
  associationID : event.associationID = owner

section Effect

variable {owner : ℤ} {event : Event} {st : Store}

/-- An insert of a plain event whose id is new. -/
theorem createEvent_of_fresh (plain : Plain owner event)
    (fresh : (Gorm.eventRow event st.eventsIDSeq owner).id ∉
      st.drawEventID.events.map EventRow.id)
    (owned : (Gorm.eventRow event st.eventsIDSeq owner).associationID ∈
      st.drawEventID.associations.map AssociationRow.id) :
    (createEvent .none event st).2 =
      st.drawEventID.addEvent (Gorm.eventRow event st.eventsIDSeq owner) fresh owned := by
  have inserted : st.drawEventID.insertEvent (Gorm.eventRow event st.eventsIDSeq owner) =
      .ok (st.drawEventID.addEvent (Gorm.eventRow event st.eventsIDSeq owner) fresh owned) :=
    Store.insertEvent_eq_ok.mpr ⟨fresh, owned, rfl⟩
  simp only [createEvent, Gorm.createEvent, Gorm.saveBeforeAssociations, plain.association,
    plain.id, plain.associationID, ↓reduceIte, inserted]

/-- An insert of a plain event whose id is taken leaves the tables alone. -/
theorem createEvent_of_taken (plain : Plain owner event)
    (taken : st.eventsIDSeq ∈ st.events.map EventRow.id) :
    (createEvent .none event st).2 = st.drawEventID := by
  have refused : st.drawEventID.insertEvent (Gorm.eventRow event st.eventsIDSeq owner) =
      .error .eventsPkey := dif_pos taken
  simp only [createEvent, Gorm.createEvent, Gorm.saveBeforeAssociations, plain.association,
    plain.id, plain.associationID, ↓reduceIte, refused]
  ext <;> simp

/-- An insert of a plain event that fails early changes nothing. -/
theorem createEvent_of_early (plain : Plain owner event) (err : GoError) {progress : ℕ}
    (early : progress < 2) : (createEvent (.fail err progress) event st).2 = st := by
  rcases progress with _ | _ | progress
  · rfl
  · simp only [createEvent, Gorm.saveBeforeAssociations, plain.association, ↓reduceIte]
    rfl
  · omega

/-- An insert of a plain event that fails late has drawn an id. -/
theorem createEvent_of_late (plain : Plain owner event) (err : GoError) {progress : ℕ}
    (late : ¬ progress < 2) : (createEvent (.fail err progress) event st).2 = st.drawEventID := by
  obtain ⟨more, rfl⟩ : ∃ more, progress = more + 2 := ⟨progress - 2, by omega⟩
  simp only [createEvent, Gorm.saveBeforeAssociations, plain.association, plain.id, ↓reduceIte]
  rfl

end Effect

/-- **The inserts of plain events** of a stored association add the rows whose
statements succeed with a new id, in order, and leave the associations alone. -/
theorem createEffect_of_plain {owner : ℤ} (known : owner ≠ 0) (taken : List ℤ)
    (faults : ℕ → Fault) {events : List Event} (plain : ∀ event ∈ events, Plain owner event)
    (st : Store) (owned : owner ∈ st.associations.map AssociationRow.id)
    (old : ∀ id ∈ taken, id ∈ st.events.map EventRow.id)
    (recent : ∀ id ∈ st.events.map EventRow.id, id ∈ taken ∨ id < st.eventsIDSeq) :
    let effect := createEffect faults events st
    effect.1 = none ∧ effect.2.associations = st.associations ∧
      effect.2.associationsIDSeq = st.associationsIDSeq ∧
      effect.2.events = st.events ++ insertedRows taken faults st.eventsIDSeq events ∧
      effect.2.eventsIDSeq = st.eventsIDSeq + idsDrawn faults events.length := by
  induction events generalizing st faults with
  | nil => simp [createEffect, insertedRows, idsDrawn]
  | cons event events ih =>
      have isPlain := plain event (by simp)
      have restPlain : ∀ other ∈ events, Plain owner other :=
        fun other member => plain other (by simp [member])
      have named : event.associationID ≠ 0 := isPlain.associationID ▸ known
      -- after a draw the sequence is still beyond the ids that are not in `taken`
      have recentDrawn : ∀ id ∈ st.events.map EventRow.id, id ∈ taken ∨ id < st.eventsIDSeq + 1 :=
        fun id member => (recent id member).imp_right (by omega)
      simp only [createEffect, named, ↓reduceIte, insertedRows, List.length_cons, idsDrawn]
      cases first : faults 0 with
      | fail err progress =>
          by_cases early : progress < 2
          · simp only [createEvent_of_early isPlain err early, early, ↓reduceIte]
            simpa [drawsID, not_le.mpr early] using
              ih (fun n => faults (n + 1)) restPlain st owned old recent
          · simp only [createEvent_of_late isPlain err early, early, ↓reduceIte]
            simpa [drawsID, early, not_lt.mp early, add_assoc] using
              ih _ restPlain st.drawEventID owned old recentDrawn
      | none =>
          by_cases isTaken : st.eventsIDSeq ∈ taken
          · simp only [createEvent_of_taken isPlain (old _ isTaken), isTaken, ↓reduceIte]
            simpa [drawsID, add_assoc] using ih _ restPlain st.drawEventID owned old recentDrawn
          · have fresh : (Gorm.eventRow event st.eventsIDSeq owner).id ∉
                st.drawEventID.events.map EventRow.id := fun member =>
              (recent _ member).elim isTaken (lt_irrefl _)
            have ownedDrawn : (Gorm.eventRow event st.eventsIDSeq owner).associationID ∈
                st.drawEventID.associations.map AssociationRow.id := owned
            simp only [createEvent_of_fresh isPlain fresh ownedDrawn, isTaken, ↓reduceIte,
              isPlain.associationID]
            have rest := ih (fun n => faults (n + 1)) restPlain
              (st.drawEventID.addEvent (Gorm.eventRow event st.eventsIDSeq owner) fresh
                ownedDrawn)
              owned (fun id member => by
                simp only [Store.addEvent_events, List.map_append, List.mem_append]
                exact .inl (old id member))
              (fun id member => by
                simp only [Store.addEvent_events, List.map_append, List.mem_append] at member
                rcases member with before | added
                · exact recentDrawn id before
                · simp only [List.map_cons, List.map_nil, List.mem_singleton] at added
                  simp [added, Gorm.eventRow])
            simpa [drawsID, add_assoc] using rest

/-- Events that name no association are not inserted. -/
theorem createEffect_of_blank (faults : ℕ → Fault) {events : List Event}
    (plain : ∀ event ∈ events, Plain 0 event) (st : Store) :
    (createEffect faults events st).2 = st := by
  cases events with
  | nil => rfl
  | cons event events =>
      simp [createEffect, (plain event (by simp)).associationID]

/-- **`Create`** returns, whatever its inserts meet, and leaves the store of its
effect. -/
theorem run_create_events (env : Environment) (events : List Event) (m : Machine) :
    ∃ script : Script, (∀ kind ≠ .createEvent, script kind = m.script kind) ∧
      run env (EventService.create events) m =
        let effect := createEffect (m.script .createEvent) events m.world.store
        (.ok effect.1, ⟨{ m.world with store := effect.2 }, script⟩) := by
  induction events generalizing m with
  | nil => exact ⟨m.script, fun _ _ => rfl, rfl⟩
  | cons event events ih =>
      simp only [EventService.create, createEffect]
      split
      · exact ⟨m.script, fun _ _ => rfl, rfl⟩
      · obtain ⟨script, kept, ran⟩ := ih (handle env (.createEvent event) m).2
        refine ⟨script, fun kind other => ?_, ?_⟩
        · rw [kept kind other]
          simp [handle, Call.kind, other]
        · simp only [Program.bind_eq, Program.perform_bind, run_call, ran]
          simp only [handle, Call.kind, answer, Script.next_kind]

/-- `Find` without faults. -/
theorem eval_find (env : Environment) (association : Association) (w : World) :
    eval env (EventService.find association) w =
      (.ok ((Gorm.findEvents association.id w.store).map (Gorm.scanEvent env.sessionOffset), none),
        w) := rfl

end DawnPatrol.Db

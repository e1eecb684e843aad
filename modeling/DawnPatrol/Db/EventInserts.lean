import DawnPatrol.Db.EventService

/-!
# The inserts of events

An insert of an event is one transaction of two statements: the save of its
nested association, when that is not blank, and the insert of the row with the
id of the saved association as its owner. It is accepted as a whole
(`Accepted`), and then appends one row, or leaves both tables as they were
(`createEvent_of_accepted`, `createEvent_of_not_accepted`).
-/

set_option autoImplicit false

namespace DawnPatrol.Db

open Foundation Go Api Postgres Execution

/-! ## One insert -/

/-- The id an event is inserted with. -/
def insertID (e : Event) (st : Store) : ℤ := if e.id = 0 then st.eventsIDSeq else e.id

/-- The owner an event is inserted with. -/
def insertOwner (e : Event) (st : Store) : ℤ := (Gorm.saveBeforeAssociations st e).1.1

/-- The associations when the nested association of an event has been saved. -/
def savedAssociations (e : Event) (st : Store) : List AssociationRow :=
  (Gorm.saveBeforeAssociations st e).2.associations

/-- The insert of an event meets no fault, its nested association is saved, its
id is new, and its owner is stored. -/
structure Accepted (fault : Fault) (e : Event) (st : Store) : Prop where
  faultless : fault = .none
  saves : (Gorm.saveBeforeAssociations st e).1.2 = none
  isNew : insertID e st ∉ st.events.map EventRow.id
  owned : insertOwner e st ∈ (savedAssociations e st).map AssociationRow.id

instance (fault : Fault) (e : Event) (st : Store) : Decidable (Accepted fault e st) :=
  decidable_of_iff (fault = .none ∧ (Gorm.saveBeforeAssociations st e).1.2 = none ∧
      insertID e st ∉ st.events.map EventRow.id ∧
      insertOwner e st ∈ (savedAssociations e st).map AssociationRow.id)
    ⟨fun ⟨faultless, saves, isNew, owned⟩ => ⟨faultless, saves, isNew, owned⟩,
      fun ⟨faultless, saves, isNew, owned⟩ => ⟨faultless, saves, isNew, owned⟩⟩

section Insert

variable {fault : Fault} {e : Event} {a : Association} {st : Store}

theorem createAssociation_events :
    (Gorm.createAssociation st a).2.events = st.events ∧
      (Gorm.createAssociation st a).2.eventsIDSeq = st.eventsIDSeq := by
  simp only [Gorm.createAssociation]
  split
  · rename_i stored inserted
    obtain ⟨fresh, rfl⟩ := Store.insertAssociation_eq_ok.mp inserted
    split <;> exact ⟨rfl, rfl⟩
  · split <;> exact ⟨rfl, rfl⟩

/-- Saving an association leaves the events and their sequence alone. -/
theorem saveAssociation_events :
    (Gorm.saveAssociation st a).2.events = st.events ∧
      (Gorm.saveAssociation st a).2.eventsIDSeq = st.eventsIDSeq := by
  simp only [Gorm.saveAssociation]
  split
  · exact createAssociation_events
  · split
    · simp only [Store.updateAssociation]
      split
      · rename_i stored updated
        split at updated
        · cases updated
        · cases updated
          exact ⟨rfl, rfl⟩
      · exact ⟨rfl, rfl⟩
    · exact createAssociation_events

theorem saveBeforeAssociations_events :
    (Gorm.saveBeforeAssociations st e).2.events = st.events ∧
      (Gorm.saveBeforeAssociations st e).2.eventsIDSeq = st.eventsIDSeq := by
  have kept := @saveAssociation_events e.association st
  simp only [Gorm.saveBeforeAssociations]
  split
  · exact ⟨rfl, rfl⟩
  · split <;> rename_i ran <;> rw [ran] at kept <;> exact kept

/-- **An accepted insert** appends the row of its event, and leaves the
associations as the save of the nested one does. -/
theorem createEvent_of_accepted (accepted : Accepted fault e st) :
    (createEvent fault e st).2.associations = savedAssociations e st ∧
      (createEvent fault e st).2.events =
        st.events ++ [Gorm.eventRow e (insertID e st) (insertOwner e st)] := by
  obtain ⟨rfl, saves, isNew, owned⟩ := accepted
  have kept := @saveBeforeAssociations_events e st
  simp only [createEvent, Gorm.createEvent, insertID, insertOwner, savedAssociations] at *
  rcases saving : Gorm.saveBeforeAssociations st e with ⟨⟨owner, _ | err⟩, saved⟩
  · rw [saving] at kept owned
    simp only [← kept.1, ← kept.2] at isNew ⊢
    by_cases blank : e.id = 0
    · simp only [blank, ↓reduceIte] at isNew ⊢
      have inserted : saved.drawEventID.insertEvent (Gorm.eventRow e saved.eventsIDSeq owner) =
          .ok (saved.drawEventID.addEvent (Gorm.eventRow e saved.eventsIDSeq owner) isNew owned) :=
        Store.insertEvent_eq_ok.mpr ⟨isNew, owned, rfl⟩
      simp only [inserted]
      exact ⟨rfl, rfl⟩
    · simp only [blank, ↓reduceIte] at isNew ⊢
      have inserted : saved.insertEvent (Gorm.eventRow e e.id owner) =
          .ok (saved.addEvent (Gorm.eventRow e e.id owner) isNew owned) :=
        Store.insertEvent_eq_ok.mpr ⟨isNew, owned, rfl⟩
      simp only [inserted]
      exact ⟨rfl, rfl⟩
  · rw [saving] at saves
    cases saves

/-- An insert that is not accepted leaves both tables alone. -/
theorem createEvent_of_not_accepted (refused : ¬ Accepted fault e st) :
    (createEvent fault e st).2.associations = st.associations ∧
      (createEvent fault e st).2.events = st.events := by
  cases fault with
  | fail err progress =>
      rcases progress with _ | _ | progress
      · exact ⟨rfl, rfl⟩
      · exact ⟨rfl, rfl⟩
      · exact ⟨rfl, rfl⟩
  | none =>
      simp only [createEvent, Gorm.createEvent]
      rcases saving : Gorm.saveBeforeAssociations st e with ⟨⟨owner, _ | err⟩, saved⟩
      · have kept := @saveBeforeAssociations_events e st
        rw [saving] at kept
        simp only at kept ⊢
        split
        · rename_i stored inserted
          obtain ⟨fresh, owned, -⟩ := Store.insertEvent_eq_ok.mp inserted
          refine absurd ⟨rfl, by rw [saving], ?_, ?_⟩ refused
          · simp only [insertID, ← kept.1, ← kept.2]
            by_cases blank : e.id = 0
            · simp only [blank, ↓reduceIte] at fresh ⊢
              exact fresh
            · simp only [blank, ↓reduceIte] at fresh ⊢
              exact fresh
          · simp only [insertOwner, savedAssociations, saving]
            split at owned <;> exact owned
        · exact ⟨rfl, rfl⟩
      · exact ⟨rfl, rfl⟩

end Insert

end DawnPatrol.Db

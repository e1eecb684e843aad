import DawnPatrol.Db.EventInserts

/-!
# Events with nested associations

An event holds its owner twice, as an id and as a record, and an insert saves a
record that is not blank before it inserts the event under the id of the
record. So creating events leaves the associations as they were, and every
event under the id that was checked, exactly when the accepted inserts save no
record but those of stored associations under their own ids, and save under
each id last what was stored (`create_keeps_associations_iff`).
-/

set_option autoImplicit false

namespace DawnPatrol.Db

open Foundation Go Api Postgres Execution

/-- The events whose insert is accepted, each in the store that those before it
leave. -/
def acceptedEvents : (ℕ → Fault) → List Event → Store → List Event
  | _, [], _ => []
  | faults, e :: events, st =>
      (if Accepted (faults 0) e st then [e] else []) ++
        acceptedEvents (fun n => faults (n + 1)) events (createEvent (faults 0) e st).2

/-- The rows that events save of their nested associations under the ids of
these. -/
def savedRows (events : List Event) : List AssociationRow :=
  (events.filter fun e => e.association ≠ {}).map fun e =>
    Gorm.associationRow e.association e.association.id

/-- A nested association is blank, or has the id of a stored one. -/
def SavesStored (st : Store) (e : Event) : Prop :=
  e.association = {} ∨
    (e.association.id ≠ 0 ∧ e.association.id ∈ st.associations.map AssociationRow.id)

/-- The accepted events save associations that are stored, under the ids they
name, and save last under each id the row that is stored. -/
structure KeepsAssociations (st : Store) (accepted : List Event) : Prop where
  own : ∀ e ∈ accepted, e.association = {} ∨
    (e.association.id = e.associationID ∧
      e.association.id ∈ st.associations.map AssociationRow.id)
  last : ∀ row ∈ st.associations, ∀ saved,
    lastBy AssociationRow.id row.id (savedRows accepted) = some saved → saved = row

/-! ## One save -/

section Save

variable {e : Event} {a : Association} {st : Store}

/-- An association that is created joins the table, or is refused. -/
theorem createAssociation_adds (created : (Gorm.createAssociation st a).1.2 = none) :
    ∃ row, (Gorm.createAssociation st a).2.associations = st.associations ++ [row] := by
  simp only [Gorm.createAssociation] at created ⊢
  split at created
  · rename_i stored inserted
    obtain ⟨fresh, rfl⟩ := Store.insertAssociation_eq_ok.mp inserted
    refine ⟨Gorm.associationRow a (if a.id = 0 then st.associationsIDSeq else a.id), ?_⟩
    simp only
    split <;> rfl
  · cases created

/-- The save of a stored association takes the place of its row. -/
theorem saveAssociation_of_stored (known : a.id ≠ 0)
    (stored : a.id ∈ st.associations.map AssociationRow.id)
    (saves : (Gorm.saveAssociation st a).1.2 = none) :
    (Gorm.saveAssociation st a).1.1 = a ∧
      (Gorm.saveAssociation st a).2.associations =
        replaceBy AssociationRow.id (Gorm.associationRow a a.id) st.associations := by
  simp only [Gorm.saveAssociation, known, stored, ↓reduceIte] at saves ⊢
  cases updated : st.updateAssociation (Gorm.associationRow a a.id) with
  | error constraint =>
      rw [updated] at saves
      cases saves
  | ok next =>
      simp only [Store.updateAssociation] at updated
      split at updated
      · cases updated
      · cases updated
        exact ⟨rfl, rfl⟩

/-- The save of an association that is not stored adds a row. -/
theorem saveAssociation_of_new
    (isNew : ¬ (a.id ≠ 0 ∧ a.id ∈ st.associations.map AssociationRow.id))
    (saves : (Gorm.saveAssociation st a).1.2 = none) :
    ∃ row, (Gorm.saveAssociation st a).2.associations = st.associations ++ [row] := by
  have created : Gorm.saveAssociation st a = Gorm.createAssociation st a := by
    simp only [Gorm.saveAssociation]
    split
    · rfl
    · rename_i known
      rw [if_neg fun stored => isNew ⟨known, stored⟩]
  rw [created] at saves ⊢
  exact createAssociation_adds saves

/-- **What a save does**: nothing for a blank association, an update under the id
of a stored one, and an insert otherwise. -/
theorem savedAssociations_cases (saves : (Gorm.saveBeforeAssociations st e).1.2 = none) :
    (SavesStored st e ∧
        savedAssociations e st =
          (savedRows [e]).foldl (fun rows row => replaceBy AssociationRow.id row rows)
            st.associations ∧
        (insertOwner e st = e.associationID ↔
          e.association = {} ∨ e.association.id = e.associationID)) ∨
      (¬ SavesStored st e ∧ ∃ row, savedAssociations e st = st.associations ++ [row]) := by
  simp only [savedAssociations, insertOwner, Gorm.saveBeforeAssociations, SavesStored] at *
  by_cases blank : e.association = {}
  · left
    simp [blank, savedRows]
  · simp only [blank, ↓reduceIte, false_or] at saves ⊢
    rcases saving : Gorm.saveAssociation st e.association with ⟨⟨saved, _ | err⟩, next⟩
    · have savesNested : (Gorm.saveAssociation st e.association).1.2 = none := by rw [saving]
      by_cases stored : e.association.id ≠ 0 ∧
          e.association.id ∈ st.associations.map AssociationRow.id
      · have updated := saveAssociation_of_stored stored.1 stored.2 savesNested
        rw [saving] at updated
        simp only at updated
        exact .inl ⟨stored, by simp [updated, savedRows, blank]⟩
      · obtain ⟨row, added⟩ := saveAssociation_of_new stored savesNested
        rw [saving] at added
        exact .inr ⟨stored, row, added⟩
    · rw [saving] at saves
      cases saves

end Save

/-! ## The saves of a list -/

theorem acceptedEvents_sublist (faults : ℕ → Fault) (events : List Event) (st : Store) :
    (acceptedEvents faults events st).Sublist events := by
  induction events generalizing faults st with
  | nil => exact List.Sublist.refl _
  | cons e events ih =>
      simp only [acceptedEvents]
      split
      · exact (ih _ _).cons_cons e
      · exact (ih _ _).cons e

theorem savedRows_append (first second : List Event) :
    savedRows (first ++ second) = savedRows first ++ savedRows second := by
  simp [savedRows]

/-- Whether nested associations are stored depends on the stored ids. -/
theorem savesStored_congr {st next : Store}
    (sameIDs : next.associations.map AssociationRow.id = st.associations.map AssociationRow.id)
    (e : Event) : SavesStored next e ↔ SavesStored st e := by
  simp only [SavesStored, sameIDs]

/-- No insert removes an association. -/
theorem createEvent_associations_length (fault : Fault) (e : Event) (st : Store) :
    st.associations.length ≤ (createEvent fault e st).2.associations.length := by
  by_cases accepted : Accepted fault e st
  · rw [(createEvent_of_accepted accepted).1]
    rcases savedAssociations_cases accepted.saves with ⟨-, saved, -⟩ | ⟨-, row, added⟩
    · have keys := map_key_foldl_replaceBy AssociationRow.id (savedRows [e]) st.associations
      rw [← saved] at keys
      have lengths := congrArg List.length keys
      simp only [List.length_map] at lengths
      exact lengths.ge
    · simp [added]
  · rw [(createEvent_of_not_accepted accepted).1]

theorem createEffect_associations_length (faults : ℕ → Fault) (events : List Event) (st : Store) :
    st.associations.length ≤ (createEffect faults events st).2.associations.length := by
  induction events generalizing faults st with
  | nil => exact le_rfl
  | cons e events ih =>
      simp only [createEffect]
      split
      · exact le_rfl
      · exact (createEvent_associations_length _ _ _).trans (ih _ _)

/-- **The saves of stored associations** write their rows one after the other. -/
theorem createEffect_of_stored {events : List Event} (named : ∀ e ∈ events, e.associationID ≠ 0)
    {faults : ℕ → Fault} {st : Store}
    (stored : ∀ e ∈ acceptedEvents faults events st, SavesStored st e) :
    (createEffect faults events st).2.associations =
      (savedRows (acceptedEvents faults events st)).foldl
        (fun rows row => replaceBy AssociationRow.id row rows) st.associations := by
  induction events generalizing faults st with
  | nil => rfl
  | cons e events ih =>
      have rest := fun faults st => @ih (fun other member =>
        named other (List.mem_cons_of_mem _ member)) faults st
      simp only [createEffect, named e List.mem_cons_self, ↓reduceIte, acceptedEvents]
      simp only [acceptedEvents, List.mem_append] at stored
      by_cases accepted : Accepted (faults 0) e st
      · simp only [accepted, ↓reduceIte, List.mem_singleton] at stored ⊢
        have saved : savedAssociations e st = (savedRows [e]).foldl
            (fun rows row => replaceBy AssociationRow.id row rows) st.associations := by
          rcases savedAssociations_cases accepted.saves with ⟨-, saved, -⟩ | ⟨isNew, -⟩
          · exact saved
          · exact absurd (stored e (.inl rfl)) isNew
        have written := (createEvent_of_accepted accepted).1.trans saved
        rw [rest _ _ fun other member => (savesStored_congr (by
          rw [written, map_key_foldl_replaceBy]) other).mpr (stored other (.inr member)),
          savedRows_append, List.foldl_append, written]
      · simp only [accepted, ↓reduceIte, List.not_mem_nil, false_or, List.nil_append] at stored ⊢
        have same := (createEvent_of_not_accepted accepted).1
        rw [rest _ _ fun other member => (savesStored_congr (by rw [same]) other).mpr
          (stored other member), same]

/-- An accepted save of an association that is not stored adds a row. -/
theorem createEffect_of_new {events : List Event} (named : ∀ e ∈ events, e.associationID ≠ 0)
    {faults : ℕ → Fault} {st : Store}
    (isNew : ∃ e ∈ acceptedEvents faults events st, ¬ SavesStored st e) :
    st.associations.length < (createEffect faults events st).2.associations.length := by
  induction events generalizing faults st with
  | nil =>
      obtain ⟨e, member, -⟩ := isNew
      cases member
  | cons e events ih =>
      have rest := fun faults st => @ih (fun other member =>
        named other (List.mem_cons_of_mem _ member)) faults st
      have longer := createEffect_associations_length (fun n => faults (n + 1)) events
        (createEvent (faults 0) e st).2
      obtain ⟨other, member, isNew⟩ := isNew
      simp only [createEffect, named e List.mem_cons_self, ↓reduceIte]
      simp only [acceptedEvents, List.mem_append] at member
      by_cases accepted : Accepted (faults 0) e st
      · simp only [accepted, ↓reduceIte, List.mem_singleton] at member
        have written := (createEvent_of_accepted accepted).1
        rcases savedAssociations_cases accepted.saves with ⟨stored, saved, -⟩ | ⟨-, row, added⟩
        · have sameIDs : (createEvent (faults 0) e st).2.associations.map AssociationRow.id =
              st.associations.map AssociationRow.id := by
            rw [written, saved, map_key_foldl_replaceBy]
          rcases member with rfl | later
          · exact absurd stored isNew
          · have more := rest _ _ ⟨other, later, mt (savesStored_congr sameIDs other).mp isNew⟩
            have lengths := congrArg List.length sameIDs
            simp only [List.length_map] at lengths
            omega
        · rw [written, added] at longer
          simp only [List.length_append, List.length_singleton] at longer
          omega
      · simp only [accepted, ↓reduceIte, List.not_mem_nil, false_or] at member
        have same := (createEvent_of_not_accepted accepted).1
        have more := rest _ _ ⟨other, member, mt (savesStored_congr (by rw [same]) other).mp isNew⟩
        rwa [same] at more

/-! ## The owners of the rows -/

/-- The row that each insert adds has the owner its event names. -/
def UnderGivenOwners (faults : ℕ → Fault) (events : List Event) (st : Store) : Prop :=
  ∀ n e, events[n]? = some e → ∀ row ∈ (createEffect faults (events.take (n + 1)) st).2.events,
    row ∉ (createEffect faults (events.take n) st).2.events → row.associationID = e.associationID

theorem underGivenOwners_cons {faults : ℕ → Fault} {e : Event} {events : List Event} {st : Store}
    (named : e.associationID ≠ 0) :
    UnderGivenOwners faults (e :: events) st ↔
      (Accepted (faults 0) e st → insertOwner e st = e.associationID) ∧
        UnderGivenOwners (fun n => faults (n + 1)) events (createEvent (faults 0) e st).2 := by
  have first : (∀ row ∈ (createEvent (faults 0) e st).2.events, row ∉ st.events →
      row.associationID = e.associationID) ↔
        (Accepted (faults 0) e st → insertOwner e st = e.associationID) := by
    by_cases accepted : Accepted (faults 0) e st
    · rw [(createEvent_of_accepted accepted).2]
      constructor
      · intro given _
        refine given _ (List.mem_append_right _ (List.mem_singleton_self _)) fun old => ?_
        exact accepted.isNew (List.mem_map.mpr ⟨_, old, rfl⟩)
      · intro owner row member isNew
        rcases List.mem_append.mp member with old | added
        · exact absurd old isNew
        · rw [List.mem_singleton.mp added]
          exact owner accepted
    · rw [(createEvent_of_not_accepted accepted).2]
      simp +contextual [accepted]
  rw [← first]
  constructor
  · intro given
    refine ⟨?_, fun n other there => ?_⟩
    · simpa [createEffect, named] using given 0 e rfl
    · simpa [createEffect, named] using given (n + 1) other there
  · rintro ⟨atFirst, later⟩ n other there
    cases n with
    | zero =>
        have same : e = other := by simpa using there
        subst same
        simpa [createEffect, named] using atFirst
    | succ n => simpa [createEffect, named] using later n other there

/-- When only stored associations are saved, the rows have the owners their
events name exactly when the saved associations have the ids their events
name. -/
theorem underGivenOwners_iff {events : List Event} (named : ∀ e ∈ events, e.associationID ≠ 0)
    {faults : ℕ → Fault} {st : Store}
    (stored : ∀ e ∈ acceptedEvents faults events st, SavesStored st e) :
    UnderGivenOwners faults events st ↔
      ∀ e ∈ acceptedEvents faults events st,
        e.association = {} ∨ e.association.id = e.associationID := by
  induction events generalizing faults st with
  | nil => simp [UnderGivenOwners, acceptedEvents]
  | cons e events ih =>
      have rest := fun faults st => @ih (fun other member =>
        named other (List.mem_cons_of_mem _ member)) faults st
      rw [underGivenOwners_cons (named e List.mem_cons_self)]
      simp only [acceptedEvents, List.mem_append] at stored ⊢
      by_cases accepted : Accepted (faults 0) e st
      · simp only [accepted, ↓reduceIte, List.mem_singleton] at stored ⊢
        have isStored : SavesStored st e := stored e (.inl rfl)
        obtain ⟨-, saved, owner⟩ :=
          (savedAssociations_cases accepted.saves).resolve_right fun isNew => isNew.1 isStored
        have written := (createEvent_of_accepted accepted).1.trans saved
        rw [rest _ _ fun other member => (savesStored_congr (by
          rw [written, map_key_foldl_replaceBy]) other).mpr (stored other (.inr member)), owner]
        simp [or_imp, forall_and]
      · simp only [accepted, ↓reduceIte, List.not_mem_nil, false_or, false_imp_iff,
          true_and] at stored ⊢
        have same := (createEvent_of_not_accepted accepted).1
        exact rest _ _ fun other member =>
          (savesStored_congr (by rw [same]) other).mpr (stored other member)

/-! ## The whole list -/

/-- **Creating events leaves the associations alone**, and stores every event under
the id that was checked, exactly when the accepted events save no associations
but stored ones, under the ids they name, and last as they are stored. -/
theorem create_keeps_associations_iff (env : Environment) {events : List Event}
    (named : ∀ e ∈ events, e.associationID ≠ 0) (m : Machine) :
    let after := fun n => (run env (eventService.create (events.take n)) m).2.world.store
    ((run env (eventService.create events) m).2.world.store.associations =
        m.world.store.associations ∧
      ∀ n e, events[n]? = some e → ∀ row ∈ (after (n + 1)).events, row ∉ (after n).events →
        row.associationID = e.associationID) ↔
      KeepsAssociations m.world.store
        (acceptedEvents (m.script .createEvent) events m.world.store) := by
  intro after
  have created : ∀ events, (run env (eventService.create events) m).2.world.store =
      (createEffect (m.script .createEvent) events m.world.store).2 := by
    intro events
    obtain ⟨script, -, ran⟩ := run_create_events env events m
    exact congrArg (fun both => both.2.world.store) ran
  simp only [after, created]
  change _ ∧ UnderGivenOwners _ _ _ ↔ _
  set accepted := acceptedEvents (m.script .createEvent) events m.world.store with acceptedIs
  by_cases stored : ∀ e ∈ accepted, SavesStored m.world.store e
  · rw [createEffect_of_stored named stored, foldl_replaceBy_eq_self_iff,
      underGivenOwners_iff named stored]
    constructor
    · rintro ⟨last, owners⟩
      refine ⟨fun e member => ?_, last⟩
      rcases stored e member with blank | ⟨-, inTable⟩
      · exact .inl blank
      · exact (owners e member).imp_right fun own => ⟨own, inTable⟩
    · rintro ⟨own, last⟩
      exact ⟨last, fun e member => (own e member).imp_right And.left⟩
  · refine iff_of_false ?_ ?_
    · rintro ⟨same, -⟩
      push Not at stored
      have longer := createEffect_of_new named stored
      rw [same] at longer
      exact lt_irrefl _ longer
    · rintro ⟨own, -⟩
      refine stored fun e member => (own e member).imp_right fun ⟨same, inTable⟩ => ?_
      exact ⟨same ▸ named e ((acceptedEvents_sublist _ _ _).subset member), inTable⟩

/-- A stored association, as an event may bring it. -/
def storedAssociation : Association where
  id := 1
  acronym := "ATRA"
  host := "atra.local"
  name := "American Track"

/-- The store that holds it. -/
def storeOfOne : Store := (Gorm.createAssociation .empty { storedAssociation with id := 0 }).2

/-- Two events of a stored association, of which one brings the association with it, leave
it alone. -/
theorem create_of_stored_keeps_associations :
    let events : List Event :=
      [{ associationID := 1 }, { associationID := 1, association := storedAssociation }]
    let m : Machine := ⟨.start storeOfOne (.ofAssociation "ATRA" [] .nil), .clear⟩
    let after := fun n => (run .plain (eventService.create (events.take n)) m).2.world.store
    (run .plain (eventService.create events) m).2.world.store.events.length = 2 ∧
      (run .plain (eventService.create events) m).2.world.store.associations =
          m.world.store.associations ∧
        ∀ n e, events[n]? = some e → ∀ row ∈ (after (n + 1)).events, row ∉ (after n).events →
          row.associationID = e.associationID := by
  intro events m after
  refine ⟨by decide, (@create_keeps_associations_iff .plain events (by decide) m).mpr
    ⟨fun e member => ?_, by decide⟩⟩
  have isEvent := (acceptedEvents_sublist _ _ _).subset member
  rcases List.mem_pair.mp isEvent with rfl | rfl
  · exact .inl rfl
  · exact .inr ⟨rfl, by decide⟩

/-- **An event with a new nested association** adds it to the associations. -/
theorem create_adds_association :
    ¬ ∀ (env : Environment) (events : List Event), (∀ e ∈ events, e.associationID ≠ 0) →
      ∀ m : Machine,
        (run env (eventService.create events) m).2.world.store.associations =
            m.world.store.associations ∧
          ∀ n e, events[n]? = some e →
            ∀ row ∈ (run env (eventService.create (events.take (n + 1))) m).2.world.store.events,
              row ∉ (run env (eventService.create (events.take n)) m).2.world.store.events →
                row.associationID = e.associationID := by
  intro keeps
  have same := (keeps .plain [{ associationID := 1, association := { acronym := "ATRA" } }]
    (by decide) ⟨.start .empty (.ofAssociation "CBRA" [] .nil), .clear⟩).1
  exact absurd (congrArg List.length same) (by decide)

end DawnPatrol.Db

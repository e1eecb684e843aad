import DawnPatrol.Db.EventInserts

/-!
# Creating all events or none

`Create` answers an error at the first event that names no association, when
the inserts of the events before it have been made, and does not look at the
errors of its inserts. So it is all or nothing exactly when every insert is
accepted with the owner its event names, or when an event names no association
and no insert before it is accepted (`create_all_or_nothing_iff`).
-/

set_option autoImplicit false

namespace DawnPatrol.Db

open Foundation Go Api Postgres Execution

/-- A row with the fields of an event, under its id unless that is blank. -/
def RowOf (e : Event) (row : EventRow) : Prop :=
  ∃ id, row = Gorm.eventRow e id e.associationID ∧ (e.id ≠ 0 → id = e.id)

/-- Without an error one row has been added for each event, in order. With an
error the table is as it was. -/
def AllOrNothing (events : List Event) (before : Store) (err : Option GoError) (after : Store) :
    Prop :=
  (err = none ∧ ∃ rows, after.events = before.events ++ rows ∧ List.Forall₂ RowOf events rows) ∨
    (err ≠ none ∧ after.events = before.events)

/-- Every event names an association, and each insert is accepted, in the store
that those before it leave, with the owner its event names. -/
def AllInserted : (ℕ → Fault) → List Event → Store → Prop
  | _, [], _ => True
  | faults, e :: events, st =>
      (e.associationID ≠ 0 ∧ Accepted (faults 0) e st ∧ insertOwner e st = e.associationID) ∧
        AllInserted (fun n => faults (n + 1)) events (createEvent (faults 0) e st).2

/-- An event names no association, and no insert of an event before it is
accepted. -/
def NoneInserted : (ℕ → Fault) → List Event → Store → Prop
  | _, [], _ => False
  | faults, e :: events, st =>
      e.associationID = 0 ∨ (¬ Accepted (faults 0) e st ∧
        NoneInserted (fun n => faults (n + 1)) events (createEvent (faults 0) e st).2)

/-! ## The rows that are added -/

/-- The row of an accepted insert is that of its event when it has the owner the
event names. -/
theorem rowOf_insert {e : Event} {st : Store} :
    RowOf e (Gorm.eventRow e (insertID e st) (insertOwner e st)) ↔
      insertOwner e st = e.associationID := by
  constructor
  · rintro ⟨id, same, -⟩
    exact congrArg EventRow.associationID same
  · intro owner
    refine ⟨insertID e st, by rw [owner], fun named => ?_⟩
    simp only [insertID, named, ↓reduceIte]

/-- Each insert adds at most one row, behind those that are stored. -/
theorem createEffect_appends (faults : ℕ → Fault) (events : List Event) (st : Store) :
    ∃ rows, (createEffect faults events st).2.events = st.events ++ rows ∧
      rows.length ≤ events.length := by
  induction events generalizing faults st with
  | nil => exact ⟨[], by simp [createEffect], le_rfl⟩
  | cons e events ih =>
      simp only [createEffect]
      split
      · exact ⟨[], by simp, Nat.zero_le _⟩
      · obtain ⟨rows, added, short⟩ :=
          ih (fun n => faults (n + 1)) (createEvent (faults 0) e st).2
        by_cases accepted : Accepted (faults 0) e st
        · refine ⟨Gorm.eventRow e (insertID e st) (insertOwner e st) :: rows, ?_, by simpa⟩
          rw [added, (createEvent_of_accepted accepted).2, List.append_assoc]
          rfl
        · refine ⟨rows, ?_, by simp only [List.length_cons]; omega⟩
          rw [added, (createEvent_of_not_accepted accepted).2]

/-- All rows are added exactly when all inserts are accepted as they are. -/
theorem createEffect_adds_all_iff (faults : ℕ → Fault) (events : List Event) (st : Store) :
    ((createEffect faults events st).1 = none ∧
        ∃ rows, (createEffect faults events st).2.events = st.events ++ rows ∧
          List.Forall₂ RowOf events rows) ↔
      AllInserted faults events st := by
  induction events generalizing faults st with
  | nil => simp [createEffect, AllInserted]
  | cons e events ih =>
      simp only [createEffect, AllInserted]
      by_cases blank : e.associationID = 0
      · simp [blank]
      · have rest := ih (fun n => faults (n + 1)) (createEvent (faults 0) e st).2
        simp only [blank, ↓reduceIte, ne_eq, not_false_eq_true, true_and]
        rw [← rest]
        by_cases accepted : Accepted (faults 0) e st
        · have stored := (createEvent_of_accepted accepted).2
          simp only [stored, accepted, true_and]
          constructor
          · rintro ⟨noError, _, added, _ | ⟨rowOf, rowsOf⟩⟩
            rename_i row rows
            obtain ⟨first, later⟩ : row = Gorm.eventRow e (insertID e st) (insertOwner e st) ∧
                (createEffect (fun n => faults (n + 1)) events
                  (createEvent (faults 0) e st).2).2.events =
                  st.events ++ [Gorm.eventRow e (insertID e st) (insertOwner e st)] ++ rows := by
              obtain ⟨others, appended, -⟩ := createEffect_appends (fun n => faults (n + 1)) events
                (createEvent (faults 0) e st).2
              rw [stored] at appended
              rw [appended, List.append_assoc] at added
              have both := List.append_cancel_left added
              simp only [List.singleton_append, List.cons.injEq] at both
              exact ⟨both.1.symm, by rw [appended, both.2]⟩
            exact ⟨rowOf_insert.mp (first ▸ rowOf), noError, rows, later, rowsOf⟩
          · rintro ⟨owner, noError, rows, added, rowsOf⟩
            refine ⟨noError, _, ?_, .cons (rowOf_insert.mpr owner) rowsOf⟩
            rw [added, List.append_assoc]
            rfl
        · -- one row too few is added
          simp only [accepted, false_and, iff_false, not_and, not_exists]
          intro _ rows added rowsOf
          obtain ⟨others, appended, short⟩ := createEffect_appends (fun n => faults (n + 1)) events
            (createEvent (faults 0) e st).2
          rw [(createEvent_of_not_accepted accepted).2] at appended
          have same := List.append_cancel_left (appended.symm.trans added)
          have long := rowsOf.length_eq
          rw [← same, List.length_cons] at long
          omega

/-- An error comes without a change exactly when no insert before it is
accepted. -/
theorem createEffect_adds_none_iff (faults : ℕ → Fault) (events : List Event) (st : Store) :
    ((createEffect faults events st).1 ≠ none ∧
        (createEffect faults events st).2.events = st.events) ↔
      NoneInserted faults events st := by
  induction events generalizing faults st with
  | nil => simp [createEffect, NoneInserted]
  | cons e events ih =>
      simp only [createEffect, NoneInserted]
      by_cases blank : e.associationID = 0
      · simp [blank]
      · have rest := ih (fun n => faults (n + 1)) (createEvent (faults 0) e st).2
        simp only [blank, ↓reduceIte, false_or]
        rw [← rest]
        by_cases accepted : Accepted (faults 0) e st
        · simp only [accepted, not_true_eq_false, false_and, iff_false, not_and]
          intro _ same
          obtain ⟨rows, added, -⟩ := createEffect_appends (fun n => faults (n + 1)) events
            (createEvent (faults 0) e st).2
          rw [(createEvent_of_accepted accepted).2] at added
          have lengths := congrArg List.length (same.symm.trans added)
          simp only [List.length_append, List.length_cons, List.length_nil] at lengths
          omega
        · rw [(createEvent_of_not_accepted accepted).2]
          simp only [accepted, not_false_eq_true, true_and]

/-- **`Create` is all or nothing** exactly when every insert is accepted with the
owner its event names, or an event names no association and no insert before it
is accepted. -/
theorem create_all_or_nothing_iff (env : Environment) (events : List Event) (m : Machine) :
    ∃ err later, run env (eventService.create events) m = (.ok err, later) ∧
      (AllOrNothing events m.world.store err later.world.store ↔
        AllInserted (m.script .createEvent) events m.world.store ∨
          NoneInserted (m.script .createEvent) events m.world.store) := by
  obtain ⟨script, -, ran⟩ := run_create_events env events m
  refine ⟨_, _, ran, ?_⟩
  rw [← createEffect_adds_all_iff, ← createEffect_adds_none_iff]
  rfl

/-- An event that names no association, behind one that does, leaves the first
stored under an error. -/
theorem create_stores_before_error :
    ¬ ∀ (env : Environment) (events : List Event) (m : Machine), ∃ err later,
      run env (eventService.create events) m = (.ok err, later) ∧
        AllOrNothing events m.world.store err later.world.store := by
  intro atomic
  obtain ⟨err, later, ran, all⟩ := atomic .plain [{ associationID := 1 }, {}]
    ⟨.start .seeded (.ofAssociation "CBRA" [] .nil), .clear⟩
  cases ran
  rcases all with ⟨noError, -⟩ | ⟨-, same⟩
  · cases noError
  · exact absurd (congrArg List.length same) (by decide)

end DawnPatrol.Db

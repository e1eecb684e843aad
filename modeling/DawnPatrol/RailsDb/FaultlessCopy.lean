import DawnPatrol.RailsDb.CopyEffect

/-!
# A copy whose statements succeed

When no statement fails, what a copy adds to a well-numbered store depends on
the store only through the place its association finds there: it is stored
already, it is new, or another row holds its host or its name (`placement`).
`Delivered` lists what is then appended to the tables and drawn from the
sequences, and `copyEffect_delivers` says that the program appends and draws
exactly that.
-/

set_option autoImplicit false

namespace DawnPatrol.RailsDb

open Foundation Go Api Postgres Execution Db Rails

/-! ## The place of an association -/

/-- How a store takes an association that has no id. -/
inductive Placement where
  | stored (id : ℤ)
  | fresh
  | refused
  deriving DecidableEq

/-- The place of an association, by its acronym, host and name. -/
def placement (a : Association) (st : Store) : Placement :=
  match st.associations.find? fun row => row.acronym == a.acronym with
  | some row => .stored row.id
  | none =>
      if a.host ∈ st.associations.map AssociationRow.host ∨
          a.name ∈ st.associations.map AssociationRow.name then .refused
      else .fresh

namespace Placement

/-- The number of ids that are drawn. -/
def draws : Placement → ℕ
  | stored _ => 0
  | fresh | refused => 1

/-- The id the association ends with, when `next` is the next one to draw. -/
def owner (next : ℤ) : Placement → ℤ
  | stored id => id
  | fresh => next
  | refused => 0

/-- The rows that are added. -/
def rows (a : Association) (next : ℤ) : Placement → List AssociationRow
  | fresh => [Gorm.associationRow a next]
  | stored _ | refused => []

end Placement

variable {env : Environment} {a : Association} {st : Store}

theorem placement_of_stored {row : AssociationRow} (member : row ∈ st.associations)
    (same : row.acronym = a.acronym) : placement a st = .stored row.id := by
  cases found : st.associations.find? fun row => row.acronym == a.acronym with
  | none =>
      have missing := List.find?_eq_none.mp found row member
      simp [same] at missing
  | some other =>
      have otherSame : other.acronym = a.acronym := by simpa using List.find?_some found
      have equal : other = row := List.inj_on_of_nodup_map st.associationsAcronymIdx
        (List.mem_of_find?_eq_some found) member (otherSame.trans same.symm)
      simp only [placement, found, equal]

theorem placement_of_not_stored
    (missing : a.acronym ∉ st.associations.map AssociationRow.acronym) :
    placement a st = if a.host ∈ st.associations.map AssociationRow.host ∨
        a.name ∈ st.associations.map AssociationRow.name then .refused else .fresh := by
  have none : st.associations.find? (fun row => row.acronym == a.acronym) = none :=
    List.find?_eq_none.mpr fun row member same =>
      missing (List.mem_map.mpr ⟨row, member, by simpa using same⟩)
  simp only [placement, none]

/-- The row of a stored association. -/
theorem row_of_placement_stored {id : ℤ} (place : placement a st = .stored id) :
    ∃ row ∈ st.associations, row.acronym = a.acronym ∧ row.id = id := by
  by_cases stored : a.acronym ∈ st.associations.map AssociationRow.acronym
  · obtain ⟨row, member, same⟩ := List.mem_map.mp stored
    rw [placement_of_stored member same] at place
    cases place
    exact ⟨row, member, same, rfl⟩
  · rw [placement_of_not_stored stored] at place
    split at place <;> cases place

/-- The id of a stored association is that of a row. -/
theorem mem_of_placement_stored {id : ℤ} (place : placement a st = .stored id) :
    id ∈ st.associations.map AssociationRow.id := by
  obtain ⟨row, member, -, rfl⟩ := row_of_placement_stored place
  exact List.mem_map_of_mem member

/-- A place is given by the rows. -/
theorem placement_congr {next : Store} (same : next.associations = st.associations) :
    placement a next = placement a st := by
  simp only [placement, same]

/-- An association is refused when only its acronym is new. -/
theorem placement_eq_refused_iff :
    placement a st = .refused ↔ a.acronym ∉ st.associations.map AssociationRow.acronym ∧
      (a.host ∈ st.associations.map AssociationRow.host ∨
        a.name ∈ st.associations.map AssociationRow.name) := by
  by_cases stored : a.acronym ∈ st.associations.map AssociationRow.acronym
  · obtain ⟨row, member, same⟩ := List.mem_map.mp stored
    rw [placement_of_stored member same]
    exact iff_of_false (by simp) fun refused => refused.1 stored
  · rw [placement_of_not_stored stored, and_iff_right stored]
    split
    · rename_i taken
      exact iff_of_true rfl taken
    · rename_i free
      exact iff_of_false (by simp) free

/-- An association is fresh exactly when its values are new. -/
theorem placement_eq_fresh (numbered : st.WellNumbered) :
    placement a st = .fresh ↔
      Store.Fresh (Gorm.associationRow a st.associationsIDSeq) st.associations := by
  by_cases stored : a.acronym ∈ st.associations.map AssociationRow.acronym
  · obtain ⟨row, member, same⟩ := List.mem_map.mp stored
    rw [placement_of_stored member same]
    exact iff_of_false (by simp) fun fresh => fresh.acronym stored
  · rw [placement_of_not_stored stored]
    have idIsNew : st.associationsIDSeq ∉ st.associations.map AssociationRow.id := by
      intro taken
      obtain ⟨row, member, same⟩ := List.mem_map.mp taken
      have := (numbered.associations row member).2
      omega
    split
    · rename_i taken
      exact iff_of_false (by simp) fun fresh => taken.elim fresh.host fresh.name
    · rename_i free
      push Not at free
      exact iff_of_true rfl ⟨idIsNew, stored, free.1, free.2⟩

/-! ## What is delivered -/

/-- What a copy has read: the association it finds or creates, the Rails events,
and whether the time zone loads for all of them. -/
structure Delivery where
  association : Association
  events : List Rails.Event
  loads : Bool
  named : association.acronym ≠ ""
  blank : association.id = 0

/-- Rows of events with consecutive ids. -/
def newRows : ℤ → List Api.Event → List EventRow
  | _, [] => []
  | next, event :: events =>
      Gorm.eventRow event next event.associationID :: newRows (next + 1) events

@[simp] theorem length_newRows (next : ℤ) (events : List Api.Event) :
    (newRows next events).length = events.length := by
  induction events generalizing next with
  | nil => rfl
  | cons event events ih => simp [newRows, ih]

/-- The rows of the events of a delivery. -/
def Delivery.rows (env : Environment) (d : Delivery) (owner next : ℤ) : List EventRow :=
  if d.loads ∧ owner ≠ 0 then newRows next (d.events.map (converted env owner)) else []

/-- A delivery takes one store to the next. -/
structure Delivered (env : Environment) (d : Delivery) (st next : Store) : Prop where
  associations : next.associations = st.associations ++
    (placement d.association st).rows d.association st.associationsIDSeq
  associationsIDSeq : next.associationsIDSeq =
    st.associationsIDSeq + (placement d.association st).draws
  events : next.events = st.events ++
    d.rows env ((placement d.association st).owner st.associationsIDSeq) st.eventsIDSeq
  eventsIDSeq : next.eventsIDSeq = st.eventsIDSeq +
    (d.rows env ((placement d.association st).owner st.associationsIDSeq) st.eventsIDSeq).length

/-! ## The association of a copy -/

/-- `FirstOrCreate` without faults follows the place of its association. -/
theorem firstOrCreate_placement (numbered : st.WellNumbered) (named : a.acronym ≠ "")
    (blank : a.id = 0) :
    let effect := firstOrCreateEffect env .none .none a st
    effect.1.id = (placement a st).owner st.associationsIDSeq ∧
      effect.2.associations =
        st.associations ++ (placement a st).rows a st.associationsIDSeq ∧
      effect.2.associationsIDSeq = st.associationsIDSeq + (placement a st).draws ∧
      effect.2.events = st.events ∧ effect.2.eventsIDSeq = st.eventsIDSeq := by
  by_cases stored : a.acronym ∈ st.associations.map AssociationRow.acronym
  · obtain ⟨row, member, same⟩ := List.mem_map.mp stored
    have looked : lookUp env .none a st = Gorm.scanAssociation env.sessionOffset a row := by
      simp only [lookUp, firstAssociation_eq_some named blank member same]
      rfl
    have known : (Gorm.scanAssociation env.sessionOffset a row).id ≠ 0 :=
      (numbered.associations row member).1.ne'
    simp only [firstOrCreateEffect, looked, known, ↓reduceIte, placement_of_stored member same]
    exact ⟨rfl, by simp [Placement.rows], by simp [Placement.draws], trivial, trivial⟩
  · by_cases fresh : Store.Fresh (Gorm.associationRow a st.associationsIDSeq) st.associations
    · rw [(placement_eq_fresh numbered).mpr fresh,
        firstOrCreateEffect_of_inserts blank ⟨rfl, fresh, fun unnamed => absurd unnamed named⟩
          fresh]
      exact ⟨rfl, rfl, rfl, rfl, rfl⟩
    · have refused : placement a st = .refused := by
        have notFresh := mt (placement_eq_fresh numbered).mp fresh
        rw [placement_of_not_stored stored] at notFresh ⊢
        split
        · rfl
        · rename_i free
          exact absurd (if_neg free) notFresh
      have looked : lookUp env .none a st = a := by
        simp only [lookUp, firstAssociation_eq_none named stored]
        rfl
      obtain ⟨constraint, error⟩ := @Store.insertAssociation_of_not_fresh st.drawAssociationID
        (Gorm.associationRow a st.associationsIDSeq) fresh
      simp only [firstOrCreateEffect, looked, blank, ↓reduceIte, createAssociation,
        Gorm.createAssociation, error, refused]
      exact ⟨rfl, by simp [Placement.rows], rfl, rfl, rfl⟩

/-- The id an association ends with, unless it is blank, is that of a row. -/
theorem owner_mem (next : ℤ) (known : (placement a st).owner next ≠ 0) :
    (placement a st).owner next ∈
      (st.associations ++ (placement a st).rows a next).map AssociationRow.id := by
  by_cases stored : a.acronym ∈ st.associations.map AssociationRow.acronym
  · obtain ⟨row, member, same⟩ := List.mem_map.mp stored
    simp only [placement_of_stored member same, Placement.owner, Placement.rows, List.append_nil]
    exact List.mem_map_of_mem member
  · have place := placement_of_not_stored stored
    split at place
    · simp [place, Placement.owner] at known
    · simp [place, Placement.owner, Placement.rows, Gorm.associationRow]

/-- Short names that differ ignoring case give different host patterns. -/
theorem copiedHost_ne {first second : RacingAssociation} {acronym other : String}
    (firstPlain : IsAlphanumeric first.shortName) (secondPlain : IsAlphanumeric second.shortName)
    (differ : Unicode.asciiOnly.lower first.shortName ≠
      Unicode.asciiOnly.lower second.shortName) :
    (RacingAssociationService.copiedAssociation env acronym first).host ≠
      (RacingAssociationService.copiedAssociation env other second).host := by
  intro same
  simp only [RacingAssociationService.copiedAssociation,
    env.unicode.lower_of_alphanumeric firstPlain,
    env.unicode.lower_of_alphanumeric secondPlain] at same
  refine differ (String.toList_injective ?_)
  simpa using congrArg String.toList same

/-! ## The events of a copy -/

theorem insertedRows_of_faultless {taken : List ℤ} {faults : ℕ → Fault} {next : ℤ}
    {events : List Api.Event} (faultless : ∀ n, faults n = .none)
    (beyond : ∀ id ∈ taken, id < next) :
    insertedRows taken faults next events = newRows next events := by
  induction events generalizing faults next with
  | nil => rfl
  | cons event events ih =>
      have fresh : next ∉ taken := fun member => lt_irrefl _ (beyond next member)
      simp only [insertedRows, newRows, faultless 0, fresh, ↓reduceIte]
      rw [ih (fun n => faultless (n + 1)) fun id member => by
        have := beyond id member
        omega]

theorem idsDrawn_of_faultless {faults : ℕ → Fault} (faultless : ∀ n, faults n = .none)
    (count : ℕ) : idsDrawn faults count = count := by
  induction count generalizing faults with
  | zero => rfl
  | succ count ih =>
      simp only [idsDrawn, faultless 0, drawsID, ↓reduceIte, ih fun n => faultless (n + 1)]
      omega

/-- A script in which every statement succeeds. Connections and time zones may
fail. -/
def StatementsSucceed (script : Script) : Prop :=
  ∀ kind, kind ≠ .openConn → kind ≠ .loadLocation → ∀ n, script kind n = .none

theorem statementsSucceed_clear : StatementsSucceed .clear := fun _ _ _ _ => rfl

/-- What a copy that finds a racing association delivers. -/
def deliveryOf (env : Environment) (script : Script) (rails : RailsDatabase) (acronym : String)
    (racing : RacingAssociation) (named : acronym ≠ "") : Delivery where
  association := RacingAssociationService.copiedAssociation env acronym racing
  events := rails.events
  loads := (firstFailure (script .loadLocation) rails.events.length).isNone
  named := named
  blank := rfl

/-- **A copy whose statements succeed** delivers what it has read, once it has
come as far as its association. -/
theorem copyEffect_delivers {script : Script} (succeed : StatementsSucceed script)
    {rails : RailsDatabase} {acronym : String} {racing : RacingAssociation}
    (reaches : Reaches env script rails acronym racing) (named : acronym ≠ "")
    (numbered : st.WellNumbered) :
    Delivered env (deliveryOf env script rails acronym racing named) st
      (copyEffect env script rails acronym st).2 := by
  set d := deliveryOf env script rails acronym racing named with dIs
  have read : railsEventsRead script rails = rails.events := by
    simp only [railsEventsRead, succeed .findRailsEvents (by decide) (by decide) 0, Fault.scanned]
  obtain ⟨ownerIs, associations, associationsIDSeq, events, eventsIDSeq⟩ :=
    @firstOrCreate_placement env d.association st numbered d.named d.blank
  have created : associationEffect env script acronym racing st =
      firstOrCreateEffect env .none .none d.association st := by
    simp only [associationEffect, succeed .firstAssociation (by decide) (by decide) 0,
      succeed .createAssociation (by decide) (by decide) 0]
    rfl
  set written := firstOrCreateEffect env .none .none d.association st with writtenIs
  set owner := (placement d.association st).owner st.associationsIDSeq with ownerName
  have noRows : ¬ (d.loads ∧ owner ≠ 0) → d.rows env owner st.eventsIDSeq = [] := fun not =>
    if_neg not
  have delivered : ∀ {stored : Store} (rows : List EventRow),
      d.rows env owner st.eventsIDSeq = rows →
      stored.associations = written.2.associations →
      stored.associationsIDSeq = written.2.associationsIDSeq →
      stored.events = st.events ++ rows →
      stored.eventsIDSeq = st.eventsIDSeq + rows.length → Delivered env d st stored := by
    rintro stored rows rfl sameAssociations sameSeq added drawn
    exact ⟨sameAssociations.trans associations, sameSeq.trans associationsIDSeq, added, drawn⟩
  rw [copyEffect_of_reaches reaches]
  simp only [read, created]
  cases zones : firstFailure (script .loadLocation) rails.events.length with
  | some err =>
      exact delivered [] (noRows (by simp [dIs, deliveryOf, zones])) rfl rfl (by simp [events])
        (by simp [eventsIDSeq])
  | none =>
      simp only [ownerIs]
      by_cases known : owner = 0
      · rw [known, eventsEffect_of_blank]
        exact delivered [] (noRows (by simp [known])) rfl rfl (by simp [events])
          (by simp [eventsIDSeq])
      · have rowsAre : d.rows env owner st.eventsIDSeq =
            newRows st.eventsIDSeq (rails.events.map (converted env owner)) :=
          if_pos ⟨by simp [dIs, deliveryOf, zones], known⟩
        have owned : owner ∈ written.2.associations.map AssociationRow.id :=
          associations ▸ owner_mem st.associationsIDSeq known
        have faultless : ∀ n, script .createEvent n = .none :=
          succeed .createEvent (by decide) (by decide)
        have beyond : ∀ id ∈ written.2.events.map EventRow.id, id < st.eventsIDSeq := by
          intro id member
          rw [events] at member
          obtain ⟨row, inTable, rfl⟩ := List.mem_map.mp member
          exact numbered.events row inTable
        obtain ⟨-, sameAssociations, sameSeq, inserted, drawn⟩ :=
          createEffect_of_plain known (written.2.events.map EventRow.id) (script .createEvent)
            (plain_of_mem_map env owner rails.events) written.2 owned (fun _ member => member)
            (fun _ member => .inl member)
        rw [eventsIDSeq] at inserted drawn
        rw [insertedRows_of_faultless faultless beyond] at inserted
        rw [idsDrawn_of_faultless faultless] at drawn
        rw [events] at inserted
        rw [List.length_map] at drawn
        exact delivered _ rowsAre sameAssociations sameSeq inserted
          (drawn.trans (by simp))

/-- A copy that does not come as far as its association leaves the store alone. -/
theorem copyEffect_of_unreached {script : Script} {rails : RailsDatabase} {acronym : String}
    (unreached : ∀ racing, ¬ Reaches env script rails acronym racing) (st : Store) :
    (copyEffect env script rails acronym st).2 = st :=
  (copyEffect_of_not_reaches unreached st).2

/-- With the racing association found, a copy whose statements succeed delivers to
every store, or cannot connect and leaves every store alone. -/
theorem copyEffect_cases {script : Script} (succeed : StatementsSucceed script)
    {rails : RailsDatabase} {acronym : String} {racing : RacingAssociation} (named : acronym ≠ "")
    (found : firstRacingAssociation env acronym rails = some racing) :
    (∀ st : Store, st.WellNumbered →
        Delivered env (deliveryOf env script rails acronym racing named) st
          (copyEffect env script rails acronym st).2) ∨
      ∀ st : Store, (copyEffect env script rails acronym st).2 = st := by
  have finds : racingAssociationFound env script rails acronym = (racing, none) := by
    simp only [racingAssociationFound, succeed .firstRacingAssociation (by decide) (by decide) 0,
      found, Fault.scannedOne]
  by_cases reached : Reaches env script rails acronym racing
  · exact .inl fun st numbered => copyEffect_delivers succeed reached named numbered
  · refine .inr fun st => copyEffect_of_unreached (fun other reaches => reached ?_) st
    have same : other = racing := by simpa using reaches.found.symm.trans finds
    exact same ▸ reaches

/-! ## Deliveries one after the other -/

theorem lt_of_mem_newRows {next : ℤ} {events : List Api.Event} {row : EventRow}
    (member : row ∈ newRows next events) : next ≤ row.id ∧ row.id < next + events.length := by
  induction events generalizing next with
  | nil => cases member
  | cons event events ih =>
      rcases List.mem_cons.mp member with rfl | later
      · simp [Gorm.eventRow]
      · have := ih later
        simp only [List.length_cons, Nat.cast_add, Nat.cast_one]
        omega

theorem lt_of_mem_rows {d : Delivery} {owner next : ℤ} {row : EventRow}
    (member : row ∈ d.rows env owner next) :
    next ≤ row.id ∧ row.id < next + (d.rows env owner next).length := by
  simp only [Delivery.rows] at member ⊢
  split at member
  · rename_i delivered
    rw [if_pos delivered, length_newRows]
    exact lt_of_mem_newRows member
  · cases member

/-- A delivery keeps a store well numbered. -/
theorem Delivered.wellNumbered {d : Delivery} {next : Store} (delivered : Delivered env d st next)
    (numbered : st.WellNumbered) : next.WellNumbered := by
  constructor
  · intro row member
    rw [delivered.associations] at member
    rw [delivered.associationsIDSeq]
    rcases List.mem_append.mp member with old | new
    · have := numbered.associations row old
      omega
    · have pos := st.associationsIDSeq_pos
      cases place : placement d.association st with
      | stored id => simp [place, Placement.rows] at new
      | refused => simp [place, Placement.rows] at new
      | fresh =>
          rw [place] at new
          rw [List.mem_singleton.mp new]
          simp only [Gorm.associationRow, Placement.draws]
          omega
  · intro row member
    rw [delivered.events] at member
    rw [delivered.eventsIDSeq]
    rcases List.mem_append.mp member with old | new
    · have := numbered.events row old
      omega
    · exact (lt_of_mem_rows new).2

/-- **Deliveries of different associations do not get in each other's way**: one
finds the same place before and after the other. -/
theorem Delivered.placement_eq {d : Delivery} {next : Store} (delivered : Delivered env d st next)
    {b : Association} (acronym : b.acronym ≠ d.association.acronym)
    (host : b.host ≠ d.association.host) (name : b.name ≠ d.association.name) :
    placement b next = placement b st := by
  have columns : ∀ {α : Type} (column : AssociationRow → α) (value : α),
      (∀ id, column (Gorm.associationRow d.association id) ≠ value) →
      (value ∈ next.associations.map column ↔ value ∈ st.associations.map column) := by
    intro α column value different
    rw [delivered.associations, List.map_append, List.mem_append, or_iff_left]
    cases placement d.association st with
    | stored id => simp [Placement.rows]
    | refused => simp [Placement.rows]
    | fresh => simpa [Placement.rows] using (different _).symm
  by_cases stored : b.acronym ∈ st.associations.map AssociationRow.acronym
  · obtain ⟨row, member, same⟩ := List.mem_map.mp stored
    rw [placement_of_stored member same]
    refine placement_of_stored ?_ same
    rw [delivered.associations]
    exact List.mem_append_left _ member
  · have missing : b.acronym ∉ next.associations.map AssociationRow.acronym := by
      rwa [columns AssociationRow.acronym b.acronym fun _ => acronym.symm]
    rw [placement_of_not_stored stored, placement_of_not_stored missing]
    simp only [columns AssociationRow.host b.host fun _ => host.symm,
      columns AssociationRow.name b.name fun _ => name.symm]

/-- A delivery whose association is not refused leaves a row for it, with the id
of the events. -/
theorem Delivered.row {d : Delivery} {next : Store}
    (delivered : Delivered env d st next)
    (accepted : placement d.association st ≠ .refused) :
    ∃ row ∈ next.associations, row.acronym = d.association.acronym ∧
      row.id = (placement d.association st).owner st.associationsIDSeq := by
  rw [delivered.associations]
  by_cases stored : d.association.acronym ∈ st.associations.map AssociationRow.acronym
  · obtain ⟨row, member, same⟩ := List.mem_map.mp stored
    rw [placement_of_stored member same]
    exact ⟨row, List.mem_append_left _ member, same, rfl⟩
  · have place := placement_of_not_stored stored
    split at place
    · exact absurd place accepted
    · rw [place]
      exact ⟨_, List.mem_append_right _ (List.mem_singleton_self _), rfl, rfl⟩

end DawnPatrol.RailsDb

import DawnPatrol.Postgres.Seed
import DawnPatrol.Server.Visits

/-!
# The events that a copy has collected

What is true of the store while a copy runs, and no other copy of its acronym: the
events of its association are those that were there when it began, followed by
the ones that it has inserted (`Collected`). Copies of other acronyms keep it so
(`Collected.others`), as they draw ids from the same sequences but insert events of
other associations only.
-/

set_option autoImplicit false

namespace DawnPatrol.Server

open Foundation Go Api Postgres Execution Db Rails RailsDb Http Requests

/-- The stored ids are below the sequences, but for the association of the seed, and
events have the greater ids the later they were added. -/
structure Numbered (st : Store) : Prop where
  associations : ∀ row ∈ st.associations, 0 < row.id ∧
    (row.id < st.associationsIDSeq ∨ row = seededAssociation)
  events : ∀ event ∈ st.events, event.id < st.eventsIDSeq
  ascending : st.events.Pairwise fun first second => first.id < second.id

section Numbered

variable {env : Environment} {careful : Prop} {acronym : String} {st next : Store}

theorem Numbered.empty : Numbered .empty where
  associations := by decide
  events := by decide
  ascending := List.Pairwise.nil

theorem Numbered.seeded : Numbered .seeded where
  associations := by decide
  events := by decide
  ascending := by decide

theorem Numbered.below (numbered : Numbered st) : IDsBelow st := by
  intro row member
  rcases (numbered.associations row member).2 with less | rfl
  · exact less.le
  · exact st.associationsIDSeq_pos

/-- Drawing ids keeps the stored ones below the sequences. -/
theorem Numbered.mono (numbered : Numbered st) (associations : next.associations = st.associations)
    (events : next.events = st.events) (seq : st.associationsIDSeq ≤ next.associationsIDSeq)
    (eventsSeq : st.eventsIDSeq ≤ next.eventsIDSeq) : Numbered next where
  associations row member := by
    obtain ⟨pos, less⟩ := numbered.associations row (associations ▸ member)
    exact ⟨pos, less.imp_left fun less => by omega⟩
  events event member := by
    have := numbered.events event (events ▸ member)
    omega
  ascending := events ▸ numbered.ascending

/-- An association that has drawn its id. -/
theorem Numbered.addAssociation (numbered : Numbered st) {row : AssociationRow}
    (fresh : Store.Fresh row st.drawAssociationID.associations)
    (drawn : row.id = st.associationsIDSeq) :
    Numbered (st.drawAssociationID.addAssociation row fresh) where
  associations other member := by
    have pos := st.associationsIDSeq_pos
    simp only [Store.addAssociation_associationsIDSeq,
      Store.drawAssociationID_associationsIDSeq]
    rcases List.mem_append.mp member with old | new
    · obtain ⟨positive, less⟩ := numbered.associations other old
      exact ⟨positive, less.imp_left fun less => by omega⟩
    · rw [List.mem_singleton.mp new, drawn]
      exact ⟨by omega, .inl (by omega)⟩
  events := numbered.events
  ascending := numbered.ascending

/-- An event that has drawn its id. -/
theorem Numbered.addEvent (numbered : Numbered st) {row : EventRow}
    (fresh : row.id ∉ st.drawEventID.events.map EventRow.id)
    (owned : row.associationID ∈ st.drawEventID.associations.map AssociationRow.id)
    (drawn : row.id = st.eventsIDSeq) : Numbered (st.drawEventID.addEvent row fresh owned) where
  associations := numbered.associations
  events other member := by
    simp only [Store.addEvent_eventsIDSeq, Store.drawEventID_eventsIDSeq]
    rcases List.mem_append.mp member with old | new
    · have := numbered.events other old
      omega
    · rw [List.mem_singleton.mp new, drawn]
      omega
  ascending := by
    refine List.pairwise_append.mpr ⟨numbered.ascending, List.pairwise_singleton _ _, ?_⟩
    intro other member new isNew
    rw [List.mem_singleton.mp isNew, drawn]
    exact numbered.events other member

theorem Numbered.step (numbered : Numbered st) (step : StoreStep env careful acronym st next) :
    Numbered next := by
  cases step with
  | same => exact numbered
  | drewAssociationID => exact numbered.mono rfl rfl (by simp) le_rfl
  | drewEventID => exact numbered.mono rfl rfl le_rfl (by simp)
  | addedAssociation fresh copied drawn => exact numbered.addAssociation fresh drawn
  | addedEvent fresh owned owner drawn isNew => exact numbered.addEvent fresh owned drawn

end Numbered

/-! ## What a copy collects -/

/-- The events of the associations with the acronym are those of the origin and the
ones that were added. The known associations are stored, and are all that have the
acronym. -/
structure Collected (acronym : String) (origin : Store) (known : List AssociationRow)
    (added : List EventRow) (st : Store) : Prop where
  numbered : Numbered st
  seq : origin.associationsIDSeq ≤ st.associationsIDSeq
  stored : ∀ row ∈ known, row ∈ st.associations
  only : ∀ row ∈ st.associations, row.acronym = acronym → row ∈ known
  begins : origin.events <+: st.events
  events : ∀ row ∈ st.associations, row.acronym = acronym →
    Gorm.findEvents row.id st = Gorm.findEvents row.id origin ++ added

section Collected

variable {env : Environment} {careful : Prop} {acronym other : String} {origin st next : Store}
  {known : List AssociationRow} {added : List EventRow}

theorem Collected.refl (numbered : Numbered st) :
    Collected acronym st st.associations [] st where
  numbered := numbered
  seq := le_rfl
  stored _ member := member
  only _ member _ := member
  begins := List.prefix_rfl
  events _ _ _ := (List.append_nil _).symm

/-- The rows stay as they are. -/
theorem Collected.mono (collected : Collected acronym origin known added st)
    (associations : next.associations = st.associations) (events : next.events = st.events)
    (seq : st.associationsIDSeq ≤ next.associationsIDSeq)
    (eventsSeq : st.eventsIDSeq ≤ next.eventsIDSeq) :
    Collected acronym origin known added next where
  numbered := collected.numbered.mono associations events seq eventsSeq
  seq := collected.seq.trans seq
  stored := associations ▸ collected.stored
  only := associations ▸ collected.only
  begins := events ▸ collected.begins
  events row member same := by
    rw [Gorm.findEvents, events]
    exact collected.events row (associations ▸ member) same

/-- No event belongs to an association that is not stored. -/
theorem findEvents_of_unstored {id : ℤ} (unstored : id ∉ st.associations.map AssociationRow.id) :
    Gorm.findEvents id st = [] := by
  refine List.filter_eq_nil_iff.mpr fun event member same => unstored ?_
  exact beq_iff_eq.mp same ▸ st.eventsAssociationID event member

/-- **A step of another acronym** leaves what was collected alone. -/
theorem Collected.others (collected : Collected acronym origin known added st)
    (different : other ≠ acronym) (step : StoreStep env careful other st next) :
    Collected acronym origin known added next := by
  have numbered := collected.numbered.step step
  cases step with
  | same => exact collected
  | drewAssociationID => exact collected.mono rfl rfl (by simp) le_rfl
  | drewEventID => exact collected.mono rfl rfl le_rfl (by simp)
  | addedAssociation fresh copied drawn =>
      have isOld : ∀ row ∈ (st.drawAssociationID.addAssociation _ fresh).associations,
          row.acronym = acronym → row ∈ st.associations := by
        intro row member same
        rcases List.mem_append.mp member with old | new
        · exact old
        · obtain ⟨racing, isRow⟩ := copied
          rw [List.mem_singleton.mp new, isRow] at same
          exact absurd same different
      have seq := collected.seq
      exact ⟨numbered, by simp only [Store.addAssociation_associationsIDSeq,
          Store.drawAssociationID_associationsIDSeq]; omega,
        fun row member => List.mem_append_left _ (collected.stored row member),
        fun row member same => collected.only row (isOld row member same) same,
        collected.begins, fun row member same => collected.events row (isOld row member same) same⟩
  | addedEvent fresh owned owner drawn isNew =>
      rename_i event
      refine ⟨numbered, collected.seq, collected.stored, collected.only,
        collected.begins.trans (List.prefix_append _ _), fun row member same => ?_⟩
      have others : event.associationID ≠ row.id := by
        intro isRow
        obtain ⟨association, stored, isOther, owns⟩ := owner
        have equal : association = row :=
          List.inj_on_of_nodup_map st.associationsPkey stored member (owns.trans isRow)
        exact different (isOther.symm.trans (equal ▸ same))
      rw [← collected.events row member same, Gorm.findEvents, Gorm.findEvents,
        Store.addEvent_events, List.filter_append]
      simp [others]

/-- The copy creates its association. -/
theorem Collected.addAssociation {row : AssociationRow}
    (collected : Collected acronym origin known [] st) (isAcronym : row.acronym = acronym)
    (fresh : Store.Fresh row st.drawAssociationID.associations)
    (drawn : row.id = st.associationsIDSeq) :
    Collected acronym origin (row :: known) [] (st.drawAssociationID.addAssociation row fresh) := by
  refine ⟨collected.numbered.addAssociation fresh drawn, ?_, fun other member => ?_,
    fun other member same => ?_, collected.begins, ?_⟩
  · have seq := collected.seq
    simp only [Store.addAssociation_associationsIDSeq, Store.drawAssociationID_associationsIDSeq]
    omega
  · rcases List.mem_cons.mp member with rfl | old
    · exact List.mem_append_right _ List.mem_cons_self
    · exact List.mem_append_left _ (collected.stored other old)
  · rcases List.mem_append.mp member with old | new
    · exact List.mem_cons_of_mem _ (collected.only other old same)
    · rw [List.mem_singleton.mp new]
      exact List.mem_cons_self
  intro other member same
  rcases List.mem_append.mp member with old | new
  · exact absurd (List.mem_map.mpr ⟨other, old, same.trans isAcronym.symm⟩) fresh.acronym
  · have none : Gorm.findEvents row.id st = [] := findEvents_of_unstored fresh.id
    have noneBefore : Gorm.findEvents row.id origin = [] :=
      List.prefix_nil.mp (none ▸ collected.begins.filter _)
    rw [List.mem_singleton.mp new, noneBefore]
    exact none

/-- The copy inserts an event. -/
theorem Collected.addEvent {row : EventRow} (collected : Collected acronym origin known added st)
    (owner : Owned acronym row.associationID st)
    (fresh : row.id ∉ st.drawEventID.events.map EventRow.id)
    (owned : row.associationID ∈ st.drawEventID.associations.map AssociationRow.id)
    (drawn : row.id = st.eventsIDSeq) :
    Collected acronym origin known (added ++ [row]) (st.drawEventID.addEvent row fresh owned) := by
  refine ⟨collected.numbered.addEvent fresh owned drawn, collected.seq, collected.stored,
    collected.only, collected.begins.trans (List.prefix_append _ _), fun other member same => ?_⟩
  obtain ⟨association, stored, isAcronym, owns⟩ := owner
  have equal : association = other :=
    List.inj_on_of_nodup_map st.associationsAcronymIdx stored member (isAcronym.trans same.symm)
  have here : row.associationID = other.id := owns.symm.trans (congrArg AssociationRow.id equal)
  rw [← List.append_assoc, ← collected.events other member same, Gorm.findEvents,
    Gorm.findEvents, Store.addEvent_events, List.filter_append]
  simp [here]

end Collected

end DawnPatrol.Server

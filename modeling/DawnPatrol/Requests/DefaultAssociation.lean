import DawnPatrol.Go.Zones
import DawnPatrol.Requests.StoredAssociation

/-!
# The default association

`Default` looks the default association up by its acronym, and
`DefaultOrCreateDefault` by its acronym, its host and its name. A row of the
acronym with another host or name is not found by the second and refuses its
insert. Such a row is stored by the seed and by a copy.

So the two agree exactly when the row of the acronym has the default host and
name, or the default association can be inserted
(`defaultOrCreateDefault_agrees_iff`).
-/

set_option autoImplicit false

namespace DawnPatrol.Requests

open Foundation Go Api Postgres Execution Db

/-- Two records of one association. Their times are equal as instants, and may
be shown in different zones. -/
structure SameAssociation (first second : Association) : Prop where
  acronym : first.acronym = second.acronym
  host : first.host = second.host
  id : first.id = second.id
  name : first.name = second.name
  railsCreatedAt : first.railsCreatedAt.compare second.railsCreatedAt = .eq
  railsUpdatedAt : first.railsUpdatedAt.compare second.railsUpdatedAt = .eq

/-- `DefaultOrCreateDefault` answers the one stored association of the acronym,
and `Default` answers it too. -/
def AgreesWithDefault (env : Environment) (w : World) : Prop :=
  ∃ created found after,
    eval env Db.AssociationService.defaultOrCreateDefault w = (.ok created, after) ∧
      eval env Db.AssociationService.default after = (.ok found, after) ∧ created.id ≠ 0 ∧
      (∃ row, (after.store.associations.filter fun row => row.acronym = "CBRA") = [row] ∧
        SameAssociation created (Gorm.scanAssociation env.sessionOffset {} row)) ∧
      SameAssociation created found

/-- A row of the default association. -/
structure DefaultRow (row : AssociationRow) : Prop where
  acronym : row.acronym = "CBRA"
  host : row.host = newDefault.host
  name : row.name = newDefault.name

section Default

variable {env : Environment} {w : World} {row : AssociationRow}

theorem SameAssociation.refl (a : Association) : SameAssociation a a where
  acronym := rfl
  host := rfl
  id := rfl
  name := rfl
  railsCreatedAt := by simp [Time.compare]
  railsUpdatedAt := by simp [Time.compare]

/-- The condition of the default record selects the default rows. -/
theorem selects_newDefault :
    (Gorm.Condition.fields newDefault).selects env.operator row = true ↔ DefaultRow row := by
  have fields : newDefault.id = 0 ∧ newDefault.railsCreatedAt = .zero ∧
      newDefault.railsUpdatedAt = .zero ∧ newDefault.acronym = "CBRA" ∧ newDefault.host ≠ "" ∧
      newDefault.name ≠ "" := by decide
  obtain ⟨id, createdAt, updatedAt, acronym, host, name⟩ := fields
  simp only [Gorm.Condition.selects, id, createdAt, updatedAt, acronym, BEq.rfl, Bool.true_or,
    Bool.and_true, Bool.and_eq_true, Bool.or_eq_true, beq_iff_eq, host, name, false_or]
  constructor
  · rintro ⟨⟨acronymIs | acronymIs, hostIs⟩, nameIs⟩
    · exact absurd acronymIs (by decide)
    · exact ⟨acronymIs, hostIs, nameIs⟩
  · rintro ⟨acronymIs, hostIs, nameIs⟩
    exact ⟨⟨.inr acronymIs, hostIs⟩, nameIs⟩

theorem eval_default :
    eval env Db.AssociationService.default w =
      (.ok (match Gorm.firstAssociation env.operator (.fields { acronym := "CBRA" }) {} w.store with
        | some row => Gorm.scanAssociation env.sessionOffset {} row
        | none => {}), w) := by
  have looked : eval env Db.AssociationService.default w =
      (.ok (Fault.none.scannedOne (Gorm.scanAssociation env.sessionOffset) {}
        (Gorm.firstAssociation env.operator (.fields { acronym := "CBRA" }) {} w.store)).1, w) :=
    rfl
  rw [looked]
  cases Gorm.firstAssociation env.operator (.fields { acronym := "CBRA" }) {} w.store <;> rfl

theorem eval_defaultOrCreateDefault :
    eval env Db.AssociationService.defaultOrCreateDefault w =
      match Gorm.firstAssociation env.operator (.fields newDefault) newDefault w.store with
      | some row => (.ok (Gorm.scanAssociation env.sessionOffset newDefault row), w)
      | none =>
          let created := Gorm.createAssociation w.store newDefault
          (.ok created.1.1, { w with store := created.2 }) := by
  set looked := Fault.none.scannedOne (Gorm.scanAssociation env.sessionOffset) newDefault
    (Gorm.firstAssociation env.operator (.fields newDefault) newDefault w.store) with lookedIs
  have ran : run env Db.AssociationService.defaultOrCreateDefault ⟨w, .clear⟩ =
      run env (if looked.2 = some .recordNotFound then Db.AssociationService.create looked.1
        else .ret looked.1) ⟨w, Script.clear.next .firstAssociation⟩ := rfl
  simp only [eval, ran]
  cases found : Gorm.firstAssociation env.operator (.fields newDefault) newDefault w.store with
  | some row =>
      rw [found] at lookedIs
      rw [lookedIs]
      rfl
  | none =>
      rw [found] at lookedIs
      rw [lookedIs]
      rfl

/-- `Default` answers the stored row of the acronym. -/
theorem eval_default_of_stored (member : row ∈ w.store.associations)
    (acronym : row.acronym = "CBRA") :
    eval env Db.AssociationService.default w =
      (.ok (Gorm.scanAssociation env.sessionOffset {} row), w) := by
  have found : Gorm.firstAssociation env.operator (.fields { acronym := "CBRA" }) {} w.store =
      some row :=
    @firstAssociation_eq_some env { acronym := "CBRA" } w.store (by decide) rfl row member acronym
  rw [eval_default, found]

/-- The two agree when they meet the same row. -/
theorem agreesWithDefault_of_row {created : Association} {after : World}
    (ran : eval env Db.AssociationService.defaultOrCreateDefault w = (.ok created, after))
    (known : created.id ≠ 0) (member : row ∈ after.store.associations)
    (acronym : row.acronym = "CBRA")
    (same : SameAssociation created (Gorm.scanAssociation env.sessionOffset {} row)) :
    AgreesWithDefault env w :=
  ⟨created, _, after, ran, eval_default_of_stored member acronym, known,
    ⟨row, acronym ▸ filter_acronym member, same⟩, same⟩

/-- **`DefaultOrCreateDefault` agrees with `Default`** exactly when a row with the
default acronym, host and name is stored, or the next id, the acronym, the host
and the name of the default association are all new. -/
theorem defaultOrCreateDefault_agrees_iff (reached : Reached env w) :
    AgreesWithDefault env w ↔
      (∃ row ∈ w.store.associations, DefaultRow row) ∨
        Store.Fresh (Gorm.associationRow newDefault w.store.associationsIDSeq)
          w.store.associations := by
  have ids := reached.idsSet
  have pos := w.store.associationsIDSeq_pos
  have ran := @eval_defaultOrCreateDefault env w
  cases looked : Gorm.firstAssociation env.operator (.fields newDefault) newDefault w.store with
  | some row =>
      have member := (mem_of_firstBy looked).1
      have isDefault : DefaultRow row :=
        selects_newDefault.mp (Bool.and_eq_true .. ▸ (mem_of_firstBy looked).2).1
      rw [looked] at ran
      refine iff_of_true ?_ (.inl ⟨row, member, isDefault⟩)
      have known : row.id ≠ 0 := fun unset => ids (unset ▸ List.mem_map_of_mem member)
      exact agreesWithDefault_of_row ran known member isDefault.acronym (.refl _)
  | none =>
      have unstored : ¬ ∃ row ∈ w.store.associations, DefaultRow row := by
        rintro ⟨row, member, isDefault⟩
        have unselected := firstBy_eq_none_iff.mp looked row member
        have blank : newDefault.id = 0 := rfl
        rw [selects_newDefault.mpr isDefault] at unselected
        simp [blank] at unselected
      rw [looked] at ran
      rw [or_iff_right unstored]
      constructor
      · rintro ⟨created, found, after, answered, -, known, -⟩
        by_contra taken
        rw [ran] at answered
        cases answered
        exact known (congrArg Association.id
          (@createAssociation_of_refused .none newDefault w.store rfl fun _ => taken).1)
      · intro fresh
        have freshDrawn : Store.Fresh (Gorm.associationRow newDefault w.store.associationsIDSeq)
            w.store.drawAssociationID.associations := fresh
        have accepted : w.store.drawAssociationID.insertAssociation
            (Gorm.associationRow newDefault w.store.associationsIDSeq) =
              .ok (w.store.drawAssociationID.addAssociation _ freshDrawn) :=
          Store.insertAssociation_of_fresh freshDrawn
        have inserted : Gorm.createAssociation w.store newDefault =
            (({ newDefault with id := w.store.associationsIDSeq }, none),
              w.store.drawAssociationID.addAssociation _ freshDrawn) := by
          have blank : newDefault.id = 0 := rfl
          simp only [Gorm.createAssociation, blank, ↓reduceIte, accepted]
        rw [inserted] at ran
        refine @agreesWithDefault_of_row env w
          (Gorm.associationRow newDefault w.store.associationsIDSeq) _ _ ran (by simp only; omega)
          (List.mem_append_right _ (List.mem_singleton_self _)) rfl ?_
        -- the zero times are stored to the microsecond
        exact ⟨rfl, rfl, rfl, rfl, rfl, rfl⟩

end Default

/-- The default association is inserted into a new store. -/
theorem empty_store_agrees :
    AgreesWithDefault .plain (.start .empty (.ofAssociation "CBRA" [] .nil)) :=
  (defaultOrCreateDefault_agrees_iff (reached_empty .plain rfl)).mpr (.inr (by decide))

/-- **The seeded association is not found**, as its host is not the default one. -/
theorem seeded_store_disagrees :
    ¬ ∀ (env : Environment) (w : World), Reached env w → AgreesWithDefault env w := by
  intro always
  obtain ⟨created, found, after, ran, -, known, -⟩ := always .plain
    (.start .seeded (.ofAssociation "CBRA" [] .nil)) (reached_seeded .plain rfl)
  rw [eval_defaultOrCreateDefault] at ran
  cases ran
  exact known (by decide)

end DawnPatrol.Requests

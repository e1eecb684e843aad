import DawnPatrol.Requests.Operations

/-!
# The association that `FirstOrCreate` ends with

`FirstOrCreate` looks only at the acronym, and the table keeps the id, the host
and the name unique as well. It ends with the one stored association of the
acronym exactly when the acronym is stored, or when all four values of the new
row are new (`firstOrCreate_ends_with_stored_iff`). Otherwise the insert is
refused, its error is dropped, and the record keeps the blank id.

The next id of the sequence is one of the four values. The seed names the id of
its association, so the first insert after it is refused
(`seeded_store_refuses_association`).

The texts and the id of an association are taken to be ones that the columns can
store: an insert that is refused for a value that is no `text` or no `integer` is one
that fails.
-/

set_option autoImplicit false

namespace DawnPatrol.Requests

open Foundation Go Api Postgres Execution Db

/-- The table holds one row of the acronym, whose id is that of the record, and
at most that row is new. -/
structure OneStored (acronym : String) (found : Association) (before after : Store) : Prop where
  known : found.id ≠ 0
  one : ∃ row, (after.associations.filter fun row => row.acronym = acronym) = [row] ∧
    row.id = found.id
  grows : ∃ added, after.associations = before.associations ++ added ∧ added.length ≤ 1
  events : after.events = before.events

/-- `FirstOrCreate` ends with the stored association, and finds it again: with a
new record of the acronym, and with the record it has answered. -/
def EndsWithStored (env : Environment) (a : Association) (w : World) : Prop :=
  ∃ found after, eval env (AssociationService.firstOrCreate a) w = (.ok found, after) ∧
    OneStored a.acronym found w.store after.store ∧
    ∀ b : Association, b.acronym = a.acronym → b.id = 0 ∨ b.id = found.id →
      ∃ again last, eval env (AssociationService.firstOrCreate b) after = (.ok again, last) ∧
        again.id = found.id ∧ last.store.associations = after.store.associations

section FirstOrCreate

variable {env : Environment} {a : Association} {w : World}

theorem eval_firstOrCreate :
    eval env (AssociationService.firstOrCreate a) w =
      let effect := firstOrCreateEffect env .none .none a w.store
      (.ok effect.1, { w with store := effect.2 }) := by
  simp only [eval, run_firstOrCreate]
  rfl

/-- A record with an id is answered with that id, and nothing is inserted. -/
theorem firstOrCreateEffect_of_known (known : a.id ≠ 0) (lookupFault insertFault : Fault)
    (st : Store) :
    (firstOrCreateEffect env lookupFault insertFault a st).1.id = a.id ∧
      (firstOrCreateEffect env lookupFault insertFault a st).2 = st := by
  have same : (lookUp env lookupFault a st).id = a.id := by
    rcases @lookUp_cases env lookupFault a st with unfound | ⟨row, member, found, -, scanned⟩
    · rw [unfound]
    · have selected := (mem_of_firstBy found).2
      rw [scanned]
      simp only [Bool.and_eq_true, Bool.or_eq_true, beq_iff_eq, known, false_or] at selected
      exact selected.2
  have kept : (lookUp env lookupFault a st).id ≠ 0 := same ▸ known
  simp only [firstOrCreateEffect, kept, ↓reduceIte]
  exact ⟨same, trivial⟩

/-- A table with unique acronyms holds one row of a stored acronym. -/
theorem filter_acronym {st : Store} {row : AssociationRow} (member : row ∈ st.associations) :
    (st.associations.filter fun other => other.acronym = row.acronym) = [row] := by
  have unique := st.associationsAcronymIdx
  generalize st.associations = rows at member unique
  induction rows with
  | nil => cases member
  | cons first rows ih =>
      obtain ⟨away, unique⟩ := List.nodup_cons.mp unique
      rcases List.mem_cons.mp member with rfl | later
      · have none : ∀ other ∈ rows, ¬ other.acronym = row.acronym :=
          fun other inside same => away (same ▸ List.mem_map_of_mem inside)
        simpa using none
      · have other : ¬ first.acronym = row.acronym :=
          fun same => away (same ▸ List.mem_map_of_mem later)
        simpa [other] using ih later unique

/-- When a row of the acronym is stored, it is found. -/
theorem endsWithStored_of_stored (named : a.acronym ≠ "") {found : Association} {after : World}
    (ran : eval env (AssociationService.firstOrCreate a) w = (.ok found, after))
    {row : AssociationRow} (member : row ∈ after.store.associations)
    (same : row.acronym = a.acronym) (idIs : row.id = found.id) (known : found.id ≠ 0)
    (grows : ∃ added, after.store.associations = w.store.associations ++ added ∧
      added.length ≤ 1) (events : after.store.events = w.store.events) :
    EndsWithStored env a w := by
  refine ⟨found, after, ran, ⟨known, ⟨row, same ▸ filter_acronym member, idIs⟩, grows, events⟩, ?_⟩
  intro b sameAcronym blankOrKnown
  refine ⟨_, _, eval_firstOrCreate, ?_⟩
  rcases blankOrKnown with blank | isFound
  · obtain ⟨found, rows, -⟩ := @firstOrCreateEffect_of_stored env .none .none b after.store
      (sameAcronym ▸ named) blank row member (same.trans sameAcronym.symm)
    exact ⟨found.trans idIs, rows⟩
  · obtain ⟨found, rows⟩ := @firstOrCreateEffect_of_known env b (isFound ▸ known) .none .none
      after.store
    exact ⟨found.trans isFound, congrArg Store.associations rows⟩

/-- **`FirstOrCreate` ends with the one stored association** exactly when its
acronym is stored, or the next id, the acronym, the host and the name are all
new, for values that the columns can store. -/
theorem firstOrCreate_ends_with_stored_iff (reached : Reached env w) (named : a.acronym ≠ "")
    (blank : a.id = 0) :
    EndsWithStored env a w ↔
      a.acronym ∈ w.store.associations.map AssociationRow.acronym ∨
        Store.Fresh (Gorm.associationRow a w.store.associationsIDSeq) w.store.associations := by
  have ids := reached.idsSet
  have pos := w.store.associationsIDSeq_pos
  constructor
  · rintro ⟨found, after, ran, stored, -⟩
    by_contra neither
    obtain ⟨missing, taken⟩ := not_or.mp neither
    obtain ⟨unset, -⟩ := @firstOrCreateEffect_of_refused env .none .none a w.store named blank
      missing fun _ => taken
    rw [eval_firstOrCreate] at ran
    cases ran
    exact stored.known unset
  · rintro (stored | fresh)
    · obtain ⟨row, member, same⟩ := List.mem_map.mp stored
      obtain ⟨found, rows, events, -⟩ := @firstOrCreateEffect_of_stored env .none .none a w.store
        named blank row member same
      have known : row.id ≠ 0 := fun unset => ids (unset ▸ List.mem_map_of_mem member)
      refine endsWithStored_of_stored named eval_firstOrCreate (rows ▸ member) same
        found.symm (found.symm ▸ known) ⟨[], by simpa using rows, by simp⟩ events
    · have inserted := @firstOrCreateEffect_of_inserts env .none .none a w.store blank
        ⟨rfl, fresh, fun unnamed => absurd unnamed named⟩ fresh
      have ran := @eval_firstOrCreate env a w
      rw [inserted] at ran
      exact @endsWithStored_of_stored env a w named _ _ ran
        (Gorm.associationRow a w.store.associationsIDSeq)
        (List.mem_append_right _ (List.mem_singleton_self _)) rfl rfl
        (by simp only; omega) ⟨[_], rfl, by simp⟩ rfl

end FirstOrCreate

/-- The seeded association is found in the seeded store. -/
theorem seeded_association_found :
    EndsWithStored .plain { acronym := "CBRA" } (.start .seeded (.ofAssociation "CBRA" [] .nil)) :=
  (firstOrCreate_ends_with_stored_iff (reached_seeded .plain rfl) (by decide) rfl).mpr
    (.inl (by decide))

/-- **A new association is not stored in the seeded store**: the sequence gives it
the id of the seeded one. -/
theorem seeded_store_refuses_association :
    ¬ ∀ (env : Environment) (w : World), Reached env w → ∀ a : Association, a.acronym ≠ "" →
      a.id = 0 → EndsWithStored env a w := by
  intro always
  obtain ⟨found, after, ran, stored, -⟩ := always .plain
    (.start .seeded (.ofAssociation "CBRA" [] .nil)) (reached_seeded .plain rfl)
    { acronym := "ATRA", host := "atra.local", name := "American Track" } (by decide) rfl
  rw [eval_firstOrCreate] at ran
  cases ran
  exact stored.known (by decide)

end DawnPatrol.Requests

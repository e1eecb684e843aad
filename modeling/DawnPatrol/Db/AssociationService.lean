import DawnPatrol.Api.Services

/-!
# The association service

The lookups and creations of package `db` on the table `associations`. None of
them looks at the error of the statements it makes, except `firstByHost`,
which answers it.

`FirstOrCreate` looks an association up by its acronym and, when the record
has no id after that, inserts it. What it answers and what it leaves in the
store is a function of the faults of its two statements
(`firstOrCreateEffect`, `run_firstOrCreate`).
-/

set_option autoImplicit false

namespace DawnPatrol.Db

open Foundation Go Api Postgres Execution

/-- The default association. -/
def newDefault : Association where
  acronym := "CBRA"
  host := "0.0.0.0|localhost|cbra.web"
  name := "Cascadia Bicycle Racing Association"

namespace AssociationService

/-- Creates an association. -/
def create (association : Association) : GoM Association := do
  let (created, _) ← perform (.createAssociation association)
  return created

/-- Creates the default association. -/
def createDefault : GoM Association := create newDefault

/-- Finds the default association. -/
def default : GoM Association := do
  let (association, _) ← perform (.firstAssociation (.fields { acronym := "CBRA" }) {})
  return association

/-- Returns the default association, and creates it when no row equals it. -/
def defaultOrCreateDefault : GoM Association := do
  let (association, err) ← perform (.firstAssociation (.fields newDefault) newDefault)
  if err = some .recordNotFound then create association else return association

/-- Finds the first association whose pattern matches the host. -/
def firstByHost (host : String) : GoM (Association × Option GoError) :=
  perform (.firstAssociation (.hostMatches host) {})

/-- Finds the first association with the acronym, or creates the association. -/
def firstOrCreate (association : Association) : GoM Association := do
  let (association, _) ← perform
    (.firstAssociation (.fields { acronym := association.acronym }) association)
  -- `NewRecord`: the id is blank
  if association.id = 0 then create association else return association

end AssociationService

/-- The association service of the program. -/
def associationService : AssociationService where
  create := AssociationService.create
  createDefault := AssociationService.createDefault
  default := AssociationService.default
  defaultOrCreateDefault := AssociationService.defaultOrCreateDefault
  firstByHost := AssociationService.firstByHost
  firstOrCreate := AssociationService.firstOrCreate

/-! ## What `FirstOrCreate` does -/

/-- The association with an acronym as `FirstOrCreate` looks it up. -/
def lookUp (env : Environment) (fault : Fault) (association : Association) (st : Store) :
    Association :=
  (fault.scannedOne (Gorm.scanAssociation env.sessionOffset) association
    (Gorm.firstAssociation env.operator (.fields { acronym := association.acronym }) association
      st)).1

/-- The answer and the store of `FirstOrCreate`, under the faults of its lookup
and of its insert. -/
def firstOrCreateEffect (env : Environment) (lookupFault insertFault : Fault)
    (association : Association) (st : Store) : Association × Store :=
  let found := lookUp env lookupFault association st
  if found.id = 0 then
    let created := createAssociation insertFault found st
    (created.1.1, created.2)
  else (found, st)

/-- The script after `FirstOrCreate`. -/
def scriptAfterFirstOrCreate (env : Environment) (association : Association) (m : Machine) :
    Script :=
  let found := lookUp env (m.script .firstAssociation 0) association m.world.store
  if found.id = 0 then (m.script.next .firstAssociation).next .createAssociation
  else m.script.next .firstAssociation

section Effect

variable {env : Environment} {lookupFault insertFault : Fault} {association : Association}
  {st : Store}

/-- The lookup by an acronym that is not stored finds nothing. -/
theorem firstAssociation_eq_none (named : association.acronym ≠ "")
    (missing : association.acronym ∉ st.associations.map AssociationRow.acronym) :
    Gorm.firstAssociation env.operator (.fields { acronym := association.acronym }) association
      st = none := by
  rw [Gorm.firstAssociation, firstBy_eq_none_iff]
  intro row member
  have other : row.acronym ≠ association.acronym := fun same =>
    missing (same ▸ List.mem_map_of_mem member)
  simp [Gorm.Condition.selects, named, other]

/-- The lookup by a stored acronym finds its row. -/
theorem firstAssociation_eq_some (named : association.acronym ≠ "") (blank : association.id = 0)
    {row : AssociationRow} (member : row ∈ st.associations)
    (same : row.acronym = association.acronym) :
    Gorm.firstAssociation env.operator (.fields { acronym := association.acronym }) association st =
      some row := by
  rw [Gorm.firstAssociation, firstBy_eq_some_iff st.associationsPkey]
  refine ⟨member, by simp [Gorm.Condition.selects, same, blank], ?_⟩
  intro other otherMember selected
  have equal : other.acronym = association.acronym := by
    simpa [Gorm.Condition.selects, named, blank] using selected
  rw [List.inj_on_of_nodup_map st.associationsAcronymIdx member otherMember
    (same.trans equal.symm)]

/-- An association with a stored acronym is not inserted again. -/
theorem createAssociation_of_stored (stored : association.acronym ∈
      st.associations.map AssociationRow.acronym) :
    (createAssociation insertFault association st).1.1 = association ∧
      (createAssociation insertFault association st).2.associations = st.associations ∧
      (createAssociation insertFault association st).2.events = st.events ∧
      (createAssociation insertFault association st).2.eventsIDSeq = st.eventsIDSeq := by
  cases insertFault with
  | fail err progress =>
      cases progress with
      | zero => exact ⟨rfl, rfl, rfl, rfl⟩
      | succ progress =>
          simp only [createAssociation]
          split <;> simp
  | none =>
      simp only [createAssociation, Gorm.createAssociation]
      have refused : ∀ (drawn : Store), drawn.associations = st.associations → ∀ id,
          ¬ Store.Fresh (Gorm.associationRow association id) drawn.associations :=
        fun drawn same id fresh => fresh.acronym (same ▸ stored)
      split
      · rename_i inserted
        obtain ⟨fresh, -⟩ := Store.insertAssociation_eq_ok.mp inserted
        refine absurd fresh (refused _ ?_ _)
        split <;> rfl
      · split <;> simp

/-- An insert that fails or brings a value that is taken leaves the record and
the tables alone. -/
theorem createAssociation_of_refused (blank : association.id = 0)
    (refused : insertFault = .none →
      ¬ Store.Fresh (Gorm.associationRow association st.associationsIDSeq) st.associations) :
    (createAssociation insertFault association st).1.1 = association ∧
      (createAssociation insertFault association st).2.associations = st.associations ∧
      (createAssociation insertFault association st).2.events = st.events ∧
      (createAssociation insertFault association st).2.eventsIDSeq = st.eventsIDSeq := by
  cases insertFault with
  | fail err progress =>
      cases progress with
      | zero => exact ⟨rfl, rfl, rfl, rfl⟩
      | succ progress =>
          simp only [createAssociation, blank, ↓reduceIte]
          exact ⟨trivial, rfl, rfl, rfl⟩
  | none =>
      obtain ⟨constraint, error⟩ := @Store.insertAssociation_of_not_fresh st.drawAssociationID
        (Gorm.associationRow association st.associationsIDSeq) (refused rfl)
      simp only [createAssociation, Gorm.createAssociation, blank, ↓reduceIte, error]
      exact ⟨trivial, rfl, rfl, rfl⟩

/-- **`FirstOrCreate` of a stored acronym** answers the stored id when the lookup
reaches the row, and the blank id otherwise. The tables stay as they are. -/
theorem firstOrCreateEffect_of_stored (named : association.acronym ≠ "")
    (blank : association.id = 0) {row : AssociationRow} (member : row ∈ st.associations)
    (same : row.acronym = association.acronym) :
    let effect := firstOrCreateEffect env lookupFault insertFault association st
    effect.1.id = (if lookupFault.handsOver then row.id else 0) ∧
      effect.2.associations = st.associations ∧ effect.2.events = st.events ∧
      effect.2.eventsIDSeq = st.eventsIDSeq := by
  have found := @firstAssociation_eq_some env _ _ named blank row member same
  have looked : (lookUp env lookupFault association st).id =
        (if lookupFault.handsOver then row.id else 0) ∧
      (lookUp env lookupFault association st).acronym = association.acronym := by
    simp only [lookUp, found]
    rcases lookupFault with _ | ⟨err, _ | progress⟩ <;>
      simp [Fault.scannedOne, Fault.handsOver, Gorm.scanAssociation, blank, same]
  have stored : (lookUp env lookupFault association st).acronym ∈
      st.associations.map AssociationRow.acronym := by
    rw [looked.2, ← same]
    exact List.mem_map_of_mem member
  have created := @createAssociation_of_stored insertFault _ st stored
  simp only [firstOrCreateEffect]
  split
  · exact ⟨by rw [created.1, looked.1], created.2⟩
  · exact ⟨looked.1, rfl, rfl, rfl⟩

/-- `FirstOrCreate` inserts the association: the statement does not fail, the
values are new, and the lookup finds nothing. An empty acronym restricts
nothing, so with it any row is found. -/
structure Inserts (lookupFault insertFault : Fault) (association : Association) (st : Store) :
    Prop where
  accepted : insertFault = .none
  fresh : Store.Fresh (Gorm.associationRow association st.associationsIDSeq) st.associations
  unfound : association.acronym = "" → lookupFault.handsOver = true → st.associations = []

/-- A lookup by an acronym finds a row with the acronym. -/
theorem acronym_of_firstAssociation (named : association.acronym ≠ "") {row : AssociationRow}
    (found : Gorm.firstAssociation env.operator (.fields { acronym := association.acronym })
      association st = some row) : row.acronym = association.acronym := by
  have selected := (mem_of_firstBy found).2
  simp only [Gorm.Condition.selects, Bool.and_eq_true, Bool.or_eq_true, beq_iff_eq, named,
    false_or] at selected
  exact selected.1.1.1.1.1.1

/-- What a lookup leaves: the association as it was, or a row that was found. -/
theorem lookUp_cases :
    lookUp env lookupFault association st = association ∨
      ∃ row ∈ st.associations,
        Gorm.firstAssociation env.operator (.fields { acronym := association.acronym })
          association st = some row ∧ lookupFault.handsOver = true ∧
        lookUp env lookupFault association st =
          Gorm.scanAssociation env.sessionOffset association row := by
  simp only [lookUp]
  cases found : Gorm.firstAssociation env.operator (.fields { acronym := association.acronym })
      association st with
  | none =>
      left
      rcases lookupFault with _ | ⟨err, _ | progress⟩ <;> rfl
  | some row =>
      have member := (mem_of_firstBy found).1
      rcases lookupFault with _ | ⟨err, _ | progress⟩
      · exact .inr ⟨row, member, rfl, rfl, rfl⟩
      · exact .inl rfl
      · exact .inr ⟨row, member, rfl, rfl, rfl⟩

theorem Inserts.lookUp (inserts : Inserts lookupFault insertFault association st) :
    lookUp env lookupFault association st = association := by
  rcases @lookUp_cases env lookupFault association st with same | ⟨row, member, found, reached, -⟩
  · exact same
  · by_cases named : association.acronym = ""
    · simp [inserts.unfound named reached] at member
    · rw [firstAssociation_eq_none named inserts.fresh.acronym] at found
      cases found

/-- **`FirstOrCreate` of a new association** inserts it with the next id of the
sequence. -/
theorem firstOrCreateEffect_of_inserts (blank : association.id = 0)
    (inserts : Inserts lookupFault insertFault association st)
    (fresh : Store.Fresh (Gorm.associationRow association st.associationsIDSeq)
      st.drawAssociationID.associations) :
    firstOrCreateEffect env lookupFault insertFault association st =
      ({ association with id := st.associationsIDSeq },
        st.drawAssociationID.addAssociation
          (Gorm.associationRow association st.associationsIDSeq) fresh) := by
  have accepted : st.drawAssociationID.insertAssociation
      (Gorm.associationRow association st.associationsIDSeq) =
        .ok (st.drawAssociationID.addAssociation
          (Gorm.associationRow association st.associationsIDSeq) fresh) :=
    Store.insertAssociation_of_fresh fresh
  simp only [firstOrCreateEffect, inserts.lookUp, blank, ↓reduceIte, inserts.accepted,
    createAssociation, Gorm.createAssociation, accepted]

/-- `FirstOrCreate` leaves the tables alone when it does not insert. -/
theorem firstOrCreateEffect_of_not_inserts (blank : association.id = 0)
    (refused : ¬ Inserts lookupFault insertFault association st) :
    let effect := firstOrCreateEffect env lookupFault insertFault association st
    effect.2.associations = st.associations ∧ effect.2.events = st.events ∧
      effect.2.eventsIDSeq = st.eventsIDSeq := by
  by_cases stored : (lookUp env lookupFault association st).acronym ∈
      st.associations.map AssociationRow.acronym
  · simp only [firstOrCreateEffect]
    split
    · exact (createAssociation_of_stored stored).2
    · exact ⟨rfl, rfl, rfl⟩
  · -- a row that was found has a stored acronym, so the lookup found nothing
    have same : lookUp env lookupFault association st = association :=
      lookUp_cases.resolve_right fun ⟨row, member, _, _, scanned⟩ =>
        stored (scanned ▸ List.mem_map_of_mem member)
    have unfound : association.acronym = "" → lookupFault.handsOver = true →
        st.associations = [] := by
      intro unnamed reached
      by_contra nonempty
      obtain ⟨row, found⟩ : ∃ row, Gorm.firstAssociation env.operator
          (.fields { acronym := association.acronym }) association st = some row := by
        rw [← Option.ne_none_iff_exists', Gorm.firstAssociation, Ne, firstBy_eq_none_iff]
        intro none
        obtain ⟨row, member⟩ := List.exists_mem_of_ne_nil _ nonempty
        simpa [Gorm.Condition.selects, unnamed, blank] using none row member
      have member := (mem_of_firstBy found).1
      have scanned : lookUp env lookupFault association st =
          Gorm.scanAssociation env.sessionOffset association row := by
        simp only [lookUp, found]
        rcases lookupFault with _ | ⟨err, _ | progress⟩
        · rfl
        · simp [Fault.handsOver] at reached
        · rfl
      exact stored (scanned ▸ List.mem_map_of_mem member)
    have notAccepted : insertFault = .none → ¬ Store.Fresh
        (Gorm.associationRow association st.associationsIDSeq) st.associations :=
      fun accepted fresh => refused ⟨accepted, fresh, unfound⟩
    have created := createAssociation_of_refused blank notAccepted
    simp only [firstOrCreateEffect, same, blank, ↓reduceIte]
    exact created.2

/-- **`FirstOrCreate` of a new acronym** leaves the tables alone and answers the
blank id when the insert fails or brings a value that is taken. -/
theorem firstOrCreateEffect_of_refused (named : association.acronym ≠ "")
    (blank : association.id = 0)
    (missing : association.acronym ∉ st.associations.map AssociationRow.acronym)
    (refused : insertFault = .none →
      ¬ Store.Fresh (Gorm.associationRow association st.associationsIDSeq) st.associations) :
    let effect := firstOrCreateEffect env lookupFault insertFault association st
    effect.1.id = 0 ∧ effect.2.associations = st.associations ∧ effect.2.events = st.events ∧
      effect.2.eventsIDSeq = st.eventsIDSeq := by
  have looked : lookUp env lookupFault association st = association := by
    simp only [lookUp, firstAssociation_eq_none named missing]
    rcases lookupFault with _ | ⟨err, _ | progress⟩ <;> rfl
  have created := createAssociation_of_refused blank refused
  simp only [firstOrCreateEffect, looked, blank, ↓reduceIte]
  exact ⟨by rw [created.1, blank], created.2⟩

end Effect

/-! ## The program computes the effect -/

theorem run_create (env : Environment) (association : Association) (m : Machine) :
    run env (AssociationService.create association) m =
      let created := createAssociation (m.script .createAssociation 0) association m.world.store
      (.ok created.1.1,
        ⟨{ m.world with store := created.2 }, m.script.next .createAssociation⟩) := rfl

/-- **`FirstOrCreate`** returns, whatever its statements meet. -/
theorem run_firstOrCreate (env : Environment) (association : Association) (m : Machine) :
    run env (AssociationService.firstOrCreate association) m =
      let effect := firstOrCreateEffect env (m.script .firstAssociation 0)
        (m.script .createAssociation 0) association m.world.store
      (.ok effect.1,
        ⟨{ m.world with store := effect.2 }, scriptAfterFirstOrCreate env association m⟩) := by
  have looked : run env (AssociationService.firstOrCreate association) m =
      run env (if (lookUp env (m.script .firstAssociation 0) association m.world.store).id = 0
          then AssociationService.create
            (lookUp env (m.script .firstAssociation 0) association m.world.store)
          else .ret (lookUp env (m.script .firstAssociation 0) association m.world.store))
        ⟨m.world, m.script.next .firstAssociation⟩ := rfl
  rw [looked]
  by_cases blank : (lookUp env (m.script .firstAssociation 0) association m.world.store).id = 0
  · simp [firstOrCreateEffect, scriptAfterFirstOrCreate, blank, run_create]
  · simp [firstOrCreateEffect, scriptAfterFirstOrCreate, blank]

/-- `FirstByHost` without faults. -/
theorem eval_firstByHost (env : Environment) (host : String) (w : World) :
    eval env (AssociationService.firstByHost host) w =
      (.ok (match Gorm.firstAssociation env.operator (.hostMatches host) {} w.store with
        | some row => (Gorm.scanAssociation env.sessionOffset {} row, none)
        | none => ({}, some .recordNotFound)), w) := by
  have looked : eval env (AssociationService.firstByHost host) w =
      (.ok (Fault.none.scannedOne (Gorm.scanAssociation env.sessionOffset) {}
        (Gorm.firstAssociation env.operator (.hostMatches host) {} w.store)), w) := rfl
  rw [looked]
  cases Gorm.firstAssociation env.operator (.hostMatches host) {} w.store <;> rfl

end DawnPatrol.Db

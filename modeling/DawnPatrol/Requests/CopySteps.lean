import DawnPatrol.RailsDb.RacingAssociations

/-!
# Copies that take turns

Any number of copy requests may run at the same time, each of their statements
atomic and free to fail, while the Rails databases change. This module says
once what a statement of a copy can do to the Dawn Patrol store (`StoreStep`):
draw an id, insert the association of the copy with the id it draws, or insert
an event that belongs to an association with the acronym of the copy. Nothing
is ever updated or removed.

`copyRequest_safe` proves it of the program, by rely and guarantee: a request
relies on the others only through the same relation. The invariants of runs in
the modules that follow are invariants of `StoreStep`.

A run may be careful. Then a copy is started only while no other copy of the
acronym runs, and none of the Rails events that its query hands over is stored
under the acronym already, and every event it inserts is a new one.
-/

set_option autoImplicit false

namespace DawnPatrol.Requests

open Foundation Go Postgres Execution Db Rails RailsDb

variable (env : Environment)

/-! ## Steps of the store -/

/-- A row that a copy of the acronym inserts for its association. -/
def CopiedRow (acronym : String) (row : AssociationRow) : Prop :=
  ∃ racing : RacingAssociation, row = Gorm.associationRow
    (RacingAssociationService.copiedAssociation env acronym racing) row.id

/-- What a statement of a copy of the acronym does to the store. -/
inductive StoreStep (careful : Prop) (acronym : String) : Store → Store → Prop where
  | same (st : Store) : StoreStep careful acronym st st
  | drewAssociationID (st : Store) : StoreStep careful acronym st st.drawAssociationID
  | addedAssociation {st : Store} {row : AssociationRow}
      (fresh : Store.Fresh row st.drawAssociationID.associations)
      (copied : CopiedRow env acronym row) (drawn : row.id = st.associationsIDSeq) :
      StoreStep careful acronym st (st.drawAssociationID.addAssociation row fresh)
  | drewEventID (st : Store) : StoreStep careful acronym st st.drawEventID
  | addedEvent {st : Store} {row : EventRow}
      (fresh : row.id ∉ st.drawEventID.events.map EventRow.id)
      (owned : row.associationID ∈ st.drawEventID.associations.map AssociationRow.id)
      (owner : ∃ association ∈ st.associations, association.acronym = acronym ∧
        association.id = row.associationID)
      (drawn : row.id = st.eventsIDSeq)
      (isNew : careful → ∀ event ∈ st.events,
        ¬ (event.associationID = row.associationID ∧ event.railsID = row.railsID)) :
      StoreStep careful acronym st (st.drawEventID.addEvent row fresh owned)

/-- What a statement of a copy of the acronym does to the world. -/
structure CopyStep (careful : Prop) (acronym : String) (before after : World) : Prop where
  store : StoreStep env careful acronym before.store after.store
  rails : after.rails = before.rails
  response : after.response = before.response

/-! ## Runs -/

/-- None of the events with these Rails ids is stored under the acronym. -/
def Unstored (acronym : String) (railsIDs : List ℤ) (st : Store) : Prop :=
  ∀ row ∈ st.associations, row.acronym = acronym → ∀ railsID ∈ railsIDs,
    ¬ st.EventStored row.id railsID

/-- The rules of runs of copy requests, labelled by their acronyms. The Rails
databases may change to admissible ones at any time. The copy handler turns the
empty acronym away. -/
def copyRules (careful : Prop) (admissible : (String → RailsDatabase) → Prop) :
    Rules Call Call.Answer PanicValue (Option GoError) World String where
  exec acronym before call given after :=
    Answers env before call given after ∧ (careful → ∀ conn read,
      (⟨call, given⟩ : Σ call : Call, call.Answer) = ⟨.findRailsEvents conn, read⟩ →
        Unstored acronym (read.1.map Event.id) before.store)
  starts pool acronym program :=
    acronym ≠ "" ∧ program = copyRequest env acronym ∧ (careful → ¬ pool.IsLive acronym)
  outside before after :=
    ∃ rails, admissible rails ∧ after = { before with rails := rails }

variable (careful : Prop) (admissible : (String → RailsDatabase) → Prop)

/-- The contract of copy requests. In careful runs a copy tolerates copies of
other acronyms only. -/
def copyContract : Pool.Contract (copyRules env careful admissible) :=
  .ofGuarantee _ (CopyStep env careful) fun acronym other => careful → acronym ≠ other

/-! ## Facts that others leave alone -/

/-- An association with the acronym has the id. -/
def Owned (acronym : String) (id : ℤ) (st : Store) : Prop :=
  ∃ row ∈ st.associations, row.acronym = acronym ∧ row.id = id

section Stable

variable {env careful admissible} {acronym other : String} {st next : Store}

/-- A step keeps every row. -/
theorem StoreStep.keeps (step : StoreStep env careful acronym st next) :
    (∀ row ∈ st.associations, row ∈ next.associations) ∧
      ∀ event ∈ st.events, event ∈ next.events := by
  cases step <;> simp +contextual

theorem Owned.step {id : ℤ} (owned : Owned acronym id st)
    (step : StoreStep env careful other st next) : Owned acronym id next := by
  obtain ⟨row, member, same⟩ := owned
  exact ⟨row, step.keeps.1 row member, same⟩

/-- An event that is stored after a step of another acronym was stored before. -/
theorem Unstored.step {railsIDs : List ℤ} (unstored : Unstored acronym railsIDs st)
    (different : acronym ≠ other) (step : StoreStep env careful other st next) :
    Unstored acronym railsIDs next := by
  cases step with
  | same => exact unstored
  | drewAssociationID => exact unstored
  | drewEventID => exact unstored
  | addedAssociation fresh copied drawn =>
      intro row member same
      rcases List.mem_append.mp member with old | new
      · exact unstored row old same
      · obtain ⟨racing, rowIs⟩ := copied
        rw [List.mem_singleton.mp new, rowIs] at same
        exact absurd same.symm different
  | addedEvent fresh owned owner drawn isNew =>
      rintro row member same railsID inList ⟨event, eventMember, owns, named⟩
      rcases List.mem_append.mp eventMember with old | new
      · exact unstored row member same railsID inList ⟨event, old, owns, named⟩
      · -- the owner of the new event has the other acronym
        obtain ⟨association, stored, acronymIs, idIs⟩ := owner
        rw [List.mem_singleton.mp new] at owns
        have equal : association = row :=
          List.inj_on_of_nodup_map st.associationsPkey stored member (idIs.trans owns)
        exact different (same.symm.trans (equal ▸ acronymIs))

/-- A fact about the store that every step of a tolerated acronym keeps holds
after whatever the others do. -/
theorem stable_of_steps (fact : Store → Prop)
    (kept : ∀ other, (careful → acronym ≠ other) → ∀ {st next : Store},
      StoreStep env careful other st next → fact st → fact next)
    {before after : World} (moved : (copyContract env careful admissible).rely acronym before after)
    (holds : fact before.store) : fact after.store := by
  induction moved with
  | refl => exact holds
  | tail _ one ih =>
      rcases one with ⟨rails, -, rfl⟩ | ⟨other, accepts, step⟩
      · exact ih
      · exact kept other accepts step.store ih

theorem Owned.stable {id : ℤ} {before after : World}
    (moved : (copyContract env careful admissible).rely acronym before after)
    (owned : Owned acronym id before.store) : Owned acronym id after.store :=
  stable_of_steps (Owned acronym id) (fun _ _ _ _ step fact => fact.step step) moved owned

theorem Unstored.stable {railsIDs : List ℤ} {before after : World}
    (moved : (copyContract env careful admissible).rely acronym before after)
    (unstored : careful → Unstored acronym railsIDs before.store) :
    careful → Unstored acronym railsIDs after.store :=
  stable_of_steps (fun st => careful → Unstored acronym railsIDs st)
    (fun _ accepts _ _ step fact isCareful => (fact isCareful).step (accepts isCareful) step)
    moved unstored

end Stable

/-! ## The statements of a copy -/

/-- The program is safe for a copy of the acronym, and ends with `post`. -/
abbrev Safely {α : Type} (acronym : String) (program : GoM α)
    (post : Except PanicValue α → World → Prop) (w : World) : Prop :=
  program.Safe ((copyRules env careful admissible).exec acronym)
    ((copyContract env careful admissible).rely acronym)
    ((copyContract env careful admissible).guarantee acronym) post w

section Statements

variable {env careful admissible} {acronym : String}

/-- The calls that do not write. -/
def Reads : Call → Prop
  | .createAssociation _ | .createEvent _ | .setHeader .. | .writeHeader _ | .write _ => False
  | _ => True

/-- A call that does not write leaves the store, the Rails databases and the
response alone. -/
theorem quiet_answer {call : Call} {before after : World} {given : call.Answer}
    (answered : Answers env before call given after) (reads : Reads call) :
    after.store = before.store ∧ after.rails = before.rails ∧
      after.response = before.response := by
  obtain ⟨fault, answered⟩ := answered
  cases call with
  | openConn | loadLocation =>
      cases fault
      all_goals
        cases answered
        exact ⟨rfl, rfl, rfl⟩
  | createAssociation | createEvent | setHeader | writeHeader | write => exact reads.elim
  | _ =>
      cases answered
      exact ⟨rfl, rfl, rfl⟩

theorem CopyStep.of_quiet {before after : World}
    (same : after.store = before.store ∧ after.rails = before.rails ∧
      after.response = before.response) : CopyStep env careful acronym before after where
  store := same.1 ▸ .same _
  rails := same.2.1
  response := same.2.2

/-- **The frame rule.** A fact about the store that others leave alone survives a
program that only reads. -/
theorem Safely.frame {α : Type} (fact : Store → Prop)
    (stable : ∀ {before after : World},
      (copyContract env careful admissible).rely acronym before after →
        fact before.store → fact after.store)
    {program : GoM α} {post : Except PanicValue α → World → Prop} {w : World}
    (safe : Safely env careful admissible acronym program post w) (reads : program.Only Reads)
    (holds : fact w.store) :
    Safely env careful admissible acronym program
      (fun outcome later => post outcome later ∧ fact later.store) w := by
  induction program generalizing w with
  | ret value => exact fun later moved => ⟨safe later moved, stable moved holds⟩
  | raise panic => exact fun later moved => ⟨safe later moved, stable moved holds⟩
  | call op rest ih =>
      intro before moved given after answered
      obtain ⟨kept, remaining⟩ := safe before moved given after answered
      have same := (quiet_answer answered.1 reads.1).1
      exact ⟨kept, ih given remaining (reads.2 given) (same ▸ stable moved holds)⟩

/-- Opening is safe, and answers a connection to the data source name. -/
theorem attemptToOpen_safely (driver url : String) (err : Option GoError) (attempts : ℕ)
    (w : World) :
    Safely env careful admissible acronym (attemptToOpen driver url err attempts)
      (fun outcome _ => ∀ conn, outcome = .ok conn → conn.url = url) w := by
  induction attempts generalizing err w with
  | zero => exact fun _ _ conn impossible => by cases impossible
  | succ attempts ih =>
      intro before _ given after answered
      refine ⟨.of_quiet (quiet_answer answered.1 trivial), ?_⟩
      obtain ⟨fault, answered⟩ := answered.1
      cases fault with
      | none =>
          cases answered
          intro _ _ conn opened
          cases opened
          rfl
      | fail failed progress =>
          cases answered
          exact ih (some failed) _

/-- The rule of sequence for a copy, from what the first program establishes in
any world. -/
theorem Safely.bind {α β : Type} {first : GoM α} {next : α → GoM β}
    {middle : Except PanicValue α → World → Prop} {post : Except PanicValue β → World → Prop}
    {w : World} (safe : Safely env careful admissible acronym first middle w)
    (continues : ∀ value later, middle (.ok value) later →
      Safely env careful admissible acronym (next value) post later)
    (panics : ∀ panic later, post (.error panic) later) :
    Safely env careful admissible acronym (first.bind next) post w := by
  refine Program.Safe.bind (fun _ => .refl) (safe.mono ?_)
  rintro (panic | value) later holds
  · exact panics panic later
  · exact continues value later holds

/-- Finding a racing association is safe. -/
theorem find_safely (w : World) :
    Safely env careful admissible acronym (RacingAssociationService.find env acronym)
      (fun _ _ => True) w := by
  refine Safely.bind (attemptToOpen_safely _ _ _ _ w) ?_ fun _ _ => trivial
  intro db later _ before _ given after answered
  exact ⟨.of_quiet (quiet_answer answered.1 trivial), fun _ _ => trivial⟩

/-- The events of a copy belong to its association and carry the Rails ids. -/
structure CopiedFrom (associationID : ℤ) (railsEvents : List Event) (events : List Api.Event) :
    Prop where
  plain : ∀ event ∈ events, Plain associationID event
  railsIDs : events.map Api.Event.railsID = railsEvents.map Event.id

/-- Converting the events is safe. -/
theorem copiedEvents_safely (associationID : ℤ) (railsEvents : List Event) (w : World) :
    Safely env careful admissible acronym
      (RacingAssociationService.copiedEvents associationID railsEvents)
      (fun outcome _ => ∀ events, outcome = .ok (.ok events) →
        CopiedFrom associationID railsEvents events) w := by
  induction railsEvents generalizing w with
  | nil =>
      intro _ _ events ended
      cases ended
      exact ⟨by simp, rfl⟩
  | cons e railsEvents ih =>
      intro before _ given after answered
      refine ⟨.of_quiet (quiet_answer answered.1 trivial), ?_⟩
      cases given with
      | error err => exact fun _ _ events impossible => by cases impossible
      | ok pacific =>
          change Safely env careful admissible acronym
            (Program.bind (RacingAssociationService.copiedEvents associationID railsEvents) _) _ _
          refine Safely.bind (ih after) ?_ fun _ _ _ impossible => by cases impossible
          rintro (err | events) later converts _ _ both ended
          · cases ended
          · cases ended
            obtain ⟨plain, railsIDs⟩ := converts events rfl
            refine ⟨?_, by simp [RacingAssociationService.copiedEvent, railsIDs]⟩
            intro event member
            rcases List.mem_cons.mp member with rfl | member
            · exact ⟨rfl, rfl, rfl⟩
            · exact plain event member

/-- A new association has no events. -/
theorem Unstored.addAssociation {railsIDs : List ℤ} {st : Store} {row : AssociationRow}
    (unstored : Unstored acronym railsIDs st)
    (fresh : Store.Fresh row st.drawAssociationID.associations) :
    Unstored acronym railsIDs (st.drawAssociationID.addAssociation row fresh) := by
  intro other member same railsID inList stored
  rcases List.mem_append.mp member with old | new
  · exact unstored other old same railsID inList stored
  · obtain ⟨event, eventMember, owns, -⟩ := stored
    rw [List.mem_singleton.mp new] at owns
    exact fresh.id (owns ▸ st.eventsAssociationID event eventMember)

/-- The insert of the association of a copy, or of one whose acronym is stored. -/
theorem createAssociation_step (racing : RacingAssociation) (fault : Fault)
    {found : Api.Association} {st : Store} (blank : found.id = 0)
    (known : found = RacingAssociationService.copiedAssociation env acronym racing ∨
      found.acronym ∈ st.associations.map AssociationRow.acronym) (railsIDs : List ℤ) :
    let created := createAssociation fault found st
    StoreStep env careful acronym st created.2 ∧
      (created.1.1.id = 0 ∨ Owned acronym created.1.1.id created.2) ∧
      ((careful → Unstored acronym railsIDs st) →
        (careful → Unstored acronym railsIDs created.2)) := by
  cases fault with
  | fail err progress =>
      cases progress with
      | zero => exact ⟨.same st, .inl blank, id⟩
      | succ progress =>
          simp only [createAssociation, blank, ↓reduceIte]
          exact ⟨.drewAssociationID st, .inl trivial, id⟩
  | none =>
      simp only [createAssociation, Gorm.createAssociation, blank, ↓reduceIte]
      cases inserted : st.drawAssociationID.insertAssociation
          (Gorm.associationRow found st.associationsIDSeq) with
      | error constraint => exact ⟨.drewAssociationID st, .inl blank, id⟩
      | ok stored =>
          obtain ⟨fresh, rfl⟩ := Store.insertAssociation_eq_ok.mp inserted
          rcases known with rfl | taken
          · refine ⟨.addedAssociation fresh ⟨racing, rfl⟩ rfl, .inr ⟨_, List.mem_append_right _
              (List.mem_singleton_self _), rfl, rfl⟩, ?_⟩
            exact fun unstored isCareful => (unstored isCareful).addAssociation fresh
          · exact absurd taken fresh.acronym

/-- **Finding or creating the association** of a copy is safe, and answers the
blank id or that of a stored association with the acronym. -/
theorem firstOrCreate_safely (named : acronym ≠ "") (racing : RacingAssociation)
    (railsIDs : List ℤ) {w : World} (unstored : careful → Unstored acronym railsIDs w.store) :
    Safely env careful admissible acronym
      (AssociationService.firstOrCreate
        (RacingAssociationService.copiedAssociation env acronym racing))
      (fun outcome later => (∀ answered, outcome = .ok answered →
        answered.id = 0 ∨ Owned acronym answered.id later.store) ∧
          (careful → Unstored acronym railsIDs later.store)) w := by
  intro before moved given after answered
  have quiet := quiet_answer answered.1 trivial
  have sameStore := quiet.1
  refine ⟨.of_quiet quiet, ?_⟩
  have unstoredAfter : careful → Unstored acronym railsIDs after.store := by
    rw [sameStore]
    exact Unstored.stable moved unstored
  -- the lookup answers the association as it was, or a stored row with the acronym
  have known : given.1 = RacingAssociationService.copiedAssociation env acronym racing ∨
      given.1.acronym = acronym ∧ Owned acronym given.1.id after.store := by
    obtain ⟨fault, answered⟩ := answered.1
    have looked : lookUp env fault (RacingAssociationService.copiedAssociation env acronym racing)
        before.store = given.1 := congrArg (fun both => both.1.1) answered
    rw [← looked, sameStore]
    rcases lookUp_cases with same | ⟨row, member, found, -, scanned⟩
    · exact .inl same
    · have acronymIs : row.acronym = acronym := acronym_of_firstAssociation named found
      rw [scanned]
      exact .inr ⟨acronymIs, row, member, acronymIs, rfl⟩
  change Safely env careful admissible acronym
    (if given.1.id = 0 then AssociationService.create given.1 else .ret given.1) _ _
  split
  · rename_i blank
    intro second movedOn created last inserted
    obtain ⟨fault, ran⟩ := inserted.1
    cases ran
    have knownThen : given.1 = RacingAssociationService.copiedAssociation env acronym racing ∨
        given.1.acronym ∈ second.store.associations.map AssociationRow.acronym := by
      refine known.imp_right fun ⟨acronymIs, owned⟩ => ?_
      obtain ⟨row, member, same, -⟩ := owned.stable movedOn
      exact List.mem_map.mpr ⟨row, member, same.trans acronymIs.symm⟩
    obtain ⟨step, answeredID, kept⟩ :=
      @createAssociation_step env careful acronym racing fault _ _ blank knownThen railsIDs
    refine ⟨⟨step, rfl, rfl⟩, fun later further => ⟨?_, ?_⟩⟩
    · intro answered ended
      cases ended
      exact answeredID.imp_right fun owned => owned.stable further
    · exact Unstored.stable further (kept (Unstored.stable movedOn unstoredAfter))
  · rename_i nonzero
    intro later further
    refine ⟨fun answered ended => ?_, Unstored.stable further unstoredAfter⟩
    cases ended
    rcases known with same | ⟨-, owned⟩
    · exact absurd (same ▸ rfl) nonzero
    · exact .inr (owned.stable further)

/-- The insert of an event of an association with the acronym. -/
theorem createEvent_step (fault : Fault) {owner : ℤ} {event : Api.Event}
    (plain : Plain owner event) {st : Store} (owned : Owned acronym owner st) {railsIDs : List ℤ}
    (unique : (event.railsID :: railsIDs).Nodup)
    (unstored : careful → Unstored acronym (event.railsID :: railsIDs) st) :
    StoreStep env careful acronym st (createEvent fault event st).2 ∧
      (careful → Unstored acronym railsIDs (createEvent fault event st).2) := by
  obtain ⟨association, stored, acronymIs, idIs⟩ := owned
  have rest : careful → Unstored acronym railsIDs st :=
    fun isCareful row member same railsID inList =>
      unstored isCareful row member same railsID (List.mem_cons_of_mem _ inList)
  cases fault with
  | fail err progress =>
      by_cases early : progress < 2
      · rw [createEvent_of_early plain err early]
        exact ⟨.same st, rest⟩
      · rw [createEvent_of_late plain err early]
        exact ⟨.drewEventID st, rest⟩
  | none =>
      by_cases taken : st.eventsIDSeq ∈ st.events.map EventRow.id
      · rw [createEvent_of_taken plain taken]
        exact ⟨.drewEventID st, rest⟩
      · rw [createEvent_of_fresh plain taken (List.mem_map.mpr ⟨association, stored, idIs⟩)]
        refine ⟨.addedEvent _ _ ⟨association, stored, acronymIs, idIs⟩ rfl ?_, ?_⟩
        · rintro isCareful old member ⟨sameOwner, sameRailsID⟩
          exact unstored isCareful association stored acronymIs event.railsID List.mem_cons_self
            ⟨old, member, sameOwner.trans idIs.symm, sameRailsID⟩
        · rintro isCareful row member same railsID inList ⟨other, otherMember, owns, named⟩
          rcases List.mem_append.mp otherMember with old | new
          · exact rest isCareful row member same railsID inList ⟨other, old, owns, named⟩
          · rw [List.mem_singleton.mp new] at named
            have equal : event.railsID = railsID := Option.some.inj named
            exact (List.nodup_cons.mp unique).1 (equal ▸ inList)

/-- **Creating the events** of a copy is safe. -/
theorem create_safely {associationID : ℤ} {events : List Api.Event} {railsEvents : List Event}
    (copied : CopiedFrom associationID railsEvents events)
    (unique : (railsEvents.map Event.id).Nodup) {w : World}
    (known : associationID = 0 ∨ Owned acronym associationID w.store)
    (unstored : careful → Unstored acronym (railsEvents.map Event.id) w.store) :
    Safely env careful admissible acronym (EventService.create events) (fun _ _ => True) w := by
  obtain ⟨plain, railsIDs⟩ := copied
  rw [← railsIDs] at unique unstored
  clear railsIDs
  induction events generalizing w with
  | nil => exact fun _ _ => trivial
  | cons event events ih =>
      have isPlain := plain event List.mem_cons_self
      simp only [EventService.create]
      split
      · exact fun _ _ => trivial
      · rename_i named
        have owned : Owned acronym associationID w.store :=
          known.resolve_left fun blank => named (isPlain.associationID.trans blank)
        intro before moved given after answered
        obtain ⟨fault, ran⟩ := answered.1
        cases ran
        have ownedThen := owned.stable moved
        obtain ⟨step, rest⟩ := @createEvent_step env careful acronym fault _ _ isPlain _ ownedThen _
          unique (Unstored.stable moved unstored)
        exact ⟨⟨step, rfl, rfl⟩, ih (List.nodup_cons.mp unique).2 (.inr (ownedThen.step step)) rest
          fun other member => plain other (List.mem_cons_of_mem _ member)⟩

end Statements

/-! ## The whole copy -/

section Copy

variable {env careful admissible} {acronym : String}

/-- What a copy writes is safe. -/
theorem writeCopy_safely (named : acronym ≠ "") (racing : RacingAssociation)
    {railsEvents : List Event} (unique : (railsEvents.map Event.id).Nodup) {w : World}
    (unstored : careful → Unstored acronym (railsEvents.map Event.id) w.store) :
    Safely env careful admissible acronym
      (RacingAssociationService.writeCopy env eventService associationService acronym railsEvents
        racing) (fun _ _ => True) w := by
  refine Safely.bind (firstOrCreate_safely named racing (railsEvents.map Event.id) unstored) ?_
    fun _ _ => trivial
  rintro answered later ⟨known, stillUnstored⟩
  have both : ∀ {before after : World},
      (copyContract env careful admissible).rely acronym before after →
        (answered.id = 0 ∨ Owned acronym answered.id before.store) ∧
            (careful → Unstored acronym (railsEvents.map Event.id) before.store) →
          (answered.id = 0 ∨ Owned acronym answered.id after.store) ∧
            (careful → Unstored acronym (railsEvents.map Event.id) after.store) :=
    fun moved holds => ⟨holds.1.imp_right fun owned => owned.stable moved,
      Unstored.stable moved holds.2⟩
  have converts := (copiedEvents_safely answered.id railsEvents later).frame
    (fun st => (answered.id = 0 ∨ Owned acronym answered.id st) ∧
      (careful → Unstored acronym (railsEvents.map Event.id) st)) both
    (copiedEvents_only trivial _ _) ⟨known answered rfl, stillUnstored⟩
  refine Safely.bind converts ?_ fun _ _ => trivial
  rintro (err | events) last ⟨copied, ownedThen, unstoredThen⟩
  · exact fun _ _ => trivial
  · exact Safely.bind (create_safely (copied events rfl) unique ownedThen unstoredThen)
      (fun _ _ _ _ _ => trivial) fun _ _ => trivial

/-- What a copy does with its connection is safe. -/
theorem copyFrom_safely (named : acronym ≠ "") (db : Conn) (w : World) :
    Safely env careful admissible acronym
      (RacingAssociationService.copyFrom env eventService associationService db acronym)
      (fun _ _ => True) w := by
  intro before _ given after answered
  have quiet := quiet_answer answered.1 trivial
  refine ⟨.of_quiet quiet, ?_⟩
  -- the ids that were read are some of those of the database
  have someOf : ∃ count, given.1 = (before.rails db.url).events.take count ∨
      given.1 = (before.rails db.url).events := by
    obtain ⟨fault, ran⟩ := answered.1
    cases fault with
    | none => exact ⟨0, .inr (congrArg (fun both => both.1.1) ran).symm⟩
    | fail err progress => exact ⟨progress, .inl (congrArg (fun both => both.1.1) ran).symm⟩
  have part : given.1.Sublist (before.rails db.url).events := by
    obtain ⟨count, taken | all⟩ := someOf
    · exact taken ▸ List.take_sublist _ _
    · exact all ▸ List.Sublist.refl _
  have unique : (given.1.map Event.id).Nodup :=
    (before.rails db.url).events_pkey.sublist (part.map _)
  have unstored : careful → Unstored acronym (given.1.map Event.id) after.store := by
    rw [quiet.1]
    exact fun isCareful => answered.2 isCareful db given rfl
  change Safely env careful admissible acronym
    (Program.bind (RacingAssociationService.find env acronym) _) _ _
  refine Safely.bind ((find_safely after).frame
    (fun st => careful → Unstored acronym (given.1.map Event.id) st)
    (fun moved => Unstored.stable moved)
      (find_only trivial fun _ => trivial) unstored) ?_ fun _ _ => trivial
  rintro ⟨racing, _ | err⟩ later ⟨-, unstoredThen⟩
  · exact writeCopy_safely named racing unique unstoredThen
  · exact fun _ _ => trivial

/-- **A copy is safe**: each of its statements is a step of a copy of its
acronym, whatever the others do in between. -/
theorem copyRequest_safely (named : acronym ≠ "") (w : World) :
    Safely env careful admissible acronym (copyRequest env acronym) (fun _ _ => True) w := by
  refine Safely.bind (attemptToOpen_safely _ _ _ _ w) ?_ fun _ _ => trivial
  intro db later _
  refine Program.Safe.deferring (fun _ => .refl) ((copyFrom_safely named db later).mono ?_)
  intro outcome ended _ before _ given after answered
  exact ⟨.of_quiet (quiet_answer answered.1 trivial), fun _ _ _ _ => trivial⟩

/-! ## Invariants of runs -/

/-- A copy that may start is safe, and tolerates and is tolerated by the copies
that run. -/
theorem starts_safely (pool : Pool Call Call.Answer PanicValue (Option GoError) World String)
    (program : GoM (Option GoError))
    (starts : (copyRules env careful admissible).starts pool acronym program) :
    Safely env careful admissible acronym program (fun _ _ => True) pool.world ∧
      ∀ other, pool.IsLive other →
        (careful → other ≠ acronym) ∧ (careful → acronym ≠ other) := by
  obtain ⟨named, rfl, alone⟩ := starts
  refine ⟨copyRequest_safely named pool.world, fun other live => ?_⟩
  exact ⟨fun isCareful same => alone isCareful (same ▸ live),
    fun isCareful same => alone isCareful (same ▸ live)⟩

/-- **The rule of copies.** A property of the store that the steps of copies of
the allowed acronyms keep holds throughout the runs of such copies. -/
theorem copies_keep (invariant : Store → Prop) (allowed : String → Prop)
    (kept : ∀ acronym, allowed acronym → ∀ {st next : Store},
      StoreStep env careful acronym st next → invariant st → invariant next)
    {first last : Pool Call Call.Answer PanicValue (Option GoError) World String}
    {actions : List (Action Call String)}
    (run : Pool.Run (copyRules env careful admissible) first actions last)
    (sound : Pool.Sound (copyContract env careful admissible) first)
    (begins : invariant first.world.store) (live : ∀ label, first.IsLive label → allowed label)
    (started : ∀ label, .started label ∈ actions → allowed label) :
    Pool.Sound (copyContract env careful admissible) last ∧ invariant last.world.store := by
  refine run.keeps (fun w => invariant w.store) ?_ ?_ ?_ sound begins live started
  · exact fun label isAllowed before after step => kept label isAllowed step.store
  · rintro before after ⟨rails, -, rfl⟩ holds
    exact holds
  · exact fun pool _ acronym program starts => starts_safely pool program starts

/-- A copy that runs on its own, under any faults, is a run of a pool in which
the other threads wait. -/
theorem run_alone (front back : List (String × GoM (Option GoError))) (m : Machine) :
    ∃ actions, (∀ action ∈ actions, ∃ call, action = .called acronym call) ∧
      Pool.Run (copyRules env False admissible)
        ⟨m.world, front ++ (acronym, copyRequest env acronym) :: back⟩ actions
        ⟨(run env (copyRequest env acronym) m).2.world,
          front ++ (acronym, Pool.ended (run env (copyRequest env acronym) m).1) :: back⟩ := by
  refine Pool.Run.alone (handle env) Machine.world front back (.of_answers _ _ ?_ _ m)
  exact fun _ _ => ⟨⟨_, rfl⟩, False.elim⟩

end Copy

end DawnPatrol.Requests

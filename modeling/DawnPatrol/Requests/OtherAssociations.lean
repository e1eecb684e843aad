import DawnPatrol.Requests.CopySteps

/-!
# A copy leaves the other associations alone

A host that is resolved to an association stays with it, and the association
keeps exactly its events, while copies of other acronyms run, take turns and
fail (`copies_leave_others_alone`).

The stored ids never pass the sequence, also in the seeded store, whose first
row did not draw its id (`IDsBelow`). So a new row has a greater id than every
stored one and loses to a stored row whose pattern matches, and an event that
is inserted belongs to an association with the acronym of its own copy.
-/

set_option autoImplicit false

namespace DawnPatrol.Requests

open Foundation Go Api Postgres Execution Db Rails RailsDb

/-- The stored ids do not pass the sequence. -/
def IDsBelow (st : Store) : Prop :=
  ∀ row ∈ st.associations, row.id ≤ st.associationsIDSeq

variable {env : Environment} {careful : Prop} {acronym : String} {st next : Store}

theorem IDsBelow.step (below : IDsBelow st) (step : StoreStep env careful acronym st next) :
    IDsBelow next := by
  cases step with
  | same => exact below
  | drewEventID => exact below
  | addedEvent => exact below
  | drewAssociationID =>
      intro row member
      have := below row member
      simp only [Store.drawAssociationID_associationsIDSeq]
      omega
  | addedAssociation fresh copied drawn =>
      intro row member
      simp only [Store.addAssociation_associationsIDSeq, Store.drawAssociationID_associationsIDSeq]
      rcases List.mem_append.mp member with old | new
      · have := below row old
        omega
      · rw [List.mem_singleton.mp new, drawn]
        omega

/-- The host resolves to a row, which has these events. -/
structure Serves (env : Environment) (host : String) (row : AssociationRow)
    (events : List EventRow) (st : Store) : Prop where
  resolves : Gorm.firstAssociation env.operator (.hostMatches host) {} st = some row
  finds : Gorm.findEvents row.id st = events

/-- **A step of another acronym** leaves a served host alone. -/
theorem Serves.step {host : String} {row : AssociationRow} {events : List EventRow}
    (serves : Serves env host row events st) (below : IDsBelow st)
    (different : row.acronym ≠ acronym)
    (step : StoreStep env careful acronym st next) : Serves env host row events next := by
  have member := (mem_of_firstBy serves.resolves).1
  cases step with
  | same => exact serves
  | drewAssociationID => exact ⟨serves.resolves, serves.finds⟩
  | drewEventID => exact ⟨serves.resolves, serves.finds⟩
  | addedAssociation fresh copied drawn =>
      rename_i added
      refine ⟨firstBy_append_of_lt serves.resolves fun other new => ?_, serves.finds⟩
      -- the id that was drawn is none of the stored ones, and none of them passes it
      have atMost := below row member
      have notStored : row.id ≠ added.id := fun same =>
        fresh.id (same ▸ List.mem_map_of_mem member)
      rw [List.mem_singleton.mp new]
      omega
  | addedEvent fresh owned owner drawn isNew =>
      rename_i added
      refine ⟨serves.resolves, ?_⟩
      have others : added.associationID ≠ row.id := by
        intro same
        obtain ⟨association, stored, acronymIs, idIs⟩ := owner
        have equal : association = row :=
          List.inj_on_of_nodup_map st.associationsPkey stored member (idIs.trans same)
        exact different (equal ▸ acronymIs)
      have kept := serves.finds
      simp only [Gorm.findEvents, Store.addEvent_events, List.filter_append] at kept ⊢
      simp [kept, others]

/-- The Rails databases name their associations with ASCII letters and digits. -/
def NamesAlphanumeric (rails : String → RailsDatabase) : Prop :=
  ∀ url, ∀ racing ∈ (rails url).racingAssociations, IsAlphanumeric racing.shortName

/-- A world with a new database, empty or seeded. -/
structure NewDatabase (w : World) : Prop where
  store : w.store = .empty ∨ w.store = .seeded
  rails : NamesAlphanumeric w.rails

theorem NewDatabase.below {w : World} (new : NewDatabase w) : IDsBelow w.store := by
  rcases new.store with same | same <;> rw [same] <;> unfold IDsBelow <;> decide

/-- The rules of runs whose racing associations have alphanumeric short names. -/
abbrev plainRules (env : Environment) := copyRules env False NamesAlphanumeric

/-- **Copying one association never disturbs another.** Take any run of copies
from a new database, a host that resolves to an association then, and any
further run in which copies of other acronyms only are live. The host still
resolves to the association, with all of its columns, and the association
still has the same events. -/
theorem copies_leave_others_alone (env : Environment) {w : World} (new : NewDatabase w)
    {pool last : Pool Call Call.Answer PanicValue (Option GoError) World String}
    {earlier further : List (Action Call String)}
    (reached : Pool.Run (plainRules env) ⟨w, []⟩ earlier pool) {host : String} {a : Association}
    (resolves : (eval env (associationService.firstByHost host) pool.world).1 = .ok (a, none))
    (live : ∀ label, pool.IsLive label → label ≠ a.acronym)
    (run : Pool.Run (plainRules env) pool further last)
    (started : ∀ label, .started label ∈ further → label ≠ a.acronym) :
    (eval env (associationService.firstByHost host) last.world).1 = .ok (a, none) ∧
      Gorm.firstAssociation env.operator (.hostMatches host) {} last.world.store =
        Gorm.firstAssociation env.operator (.hostMatches host) {} pool.world.store ∧
      (eval env (eventService.find a) last.world).1 =
        (eval env (eventService.find a) pool.world).1 ∧
      Gorm.findEvents a.id last.world.store = Gorm.findEvents a.id pool.world.store := by
  obtain ⟨sound, below⟩ := copies_keep IDsBelow (fun _ => True)
    (fun _ _ _ _ step holds => holds.step step) reached (.of_no_threads w) new.below
    (fun _ _ => trivial) (fun _ _ => trivial)
  have asked : ∀ world, (eval env (associationService.firstByHost host) world).1 = .ok _ :=
    fun world => congrArg Prod.fst (eval_firstByHost env host world)
  have listed : ∀ world, (eval env (eventService.find a) world).1 = .ok _ :=
    fun world => congrArg Prod.fst (eval_find env a world)
  obtain ⟨row, found, scanned⟩ : ∃ row,
      Gorm.firstAssociation env.operator (.hostMatches host) {} pool.world.store = some row ∧
        Gorm.scanAssociation env.sessionOffset {} row = a := by
    rw [asked] at resolves
    cases found : Gorm.firstAssociation env.operator (.hostMatches host) {} pool.world.store with
    | none => simp [found] at resolves
    | some row => exact ⟨row, rfl, by simpa [found] using resolves⟩
  have others : ∀ label, label ≠ a.acronym → row.acronym ≠ label :=
    fun label different same => different (same ▸ scanned ▸ rfl)
  obtain ⟨-, -, serves⟩ := copies_keep
    (fun st => IDsBelow st ∧
      Serves env host row (Gorm.findEvents row.id pool.world.store) st) (· ≠ a.acronym)
    (fun label different _ _ step holds => ⟨holds.1.step step,
      holds.2.step holds.1 (others label different) step⟩)
    run sound ⟨below, found, rfl⟩ live started
  have sameID : a.id = row.id := scanned ▸ rfl
  have events : Gorm.findEvents a.id last.world.store = Gorm.findEvents a.id pool.world.store := by
    rw [sameID]
    exact serves.finds
  refine ⟨?_, serves.resolves.trans found.symm, ?_, events⟩
  · rw [asked, serves.resolves, ← scanned]
  · rw [listed, listed, events]

/-- A copy that inserts another association with an event leaves the copied association
before it alone. -/
theorem copy_leaves_copied_association_alone :
    let w : World := .withTwo .empty (databaseURL .plain "ATRA") "ATRA" "CBRA"
    let copied := (run .plain (copyRequest .plain "CBRA") ⟨w, .clear⟩).2.world
    let both := (run .plain (copyRequest .plain "ATRA") ⟨copied, .clear⟩).2.world
    both.store.associations.length = 2 ∧ both.store.events.length = 3 ∧
      ∃ a, a.acronym = "CBRA" ∧
        (eval .plain (associationService.firstByHost "cbra.web") copied).1 = .ok (a, none) ∧
        (eval .plain (associationService.firstByHost "cbra.web") both).1 = .ok (a, none) ∧
        Gorm.findEvents a.id both.store = Gorm.findEvents a.id copied.store := by
  intro w copied both
  obtain ⟨earlier, -, first⟩ := @run_alone .plain NamesAlphanumeric "CBRA" [] [] ⟨w, .clear⟩
  set outcome := (run .plain (copyRequest .plain "CBRA") ⟨w, .clear⟩).1 with outcomeIs
  obtain ⟨further, own, second⟩ := @run_alone .plain NamesAlphanumeric "ATRA"
    [("CBRA", Pool.ended outcome)] [] ⟨copied, .clear⟩
  set pool : Pool Call Call.Answer PanicValue (Option GoError) World String :=
    ⟨copied, [("CBRA", Pool.ended outcome)]⟩ with poolIs
  have reached : Pool.Run (plainRules .plain) ⟨w, []⟩ (.started "CBRA" :: earlier) pool :=
    .step (.start ⟨by decide, rfl, False.elim⟩) first
  have ran : Pool.Run (plainRules .plain) pool
      (.started "ATRA" :: further) ⟨both, [("CBRA", Pool.ended outcome),
        ("ATRA", Pool.ended (run .plain (copyRequest .plain "ATRA") ⟨copied, .clear⟩).1)]⟩ :=
    .step (.start ⟨by decide, rfl, False.elim⟩) second
  have new : NewDatabase w := by
    refine ⟨.inl rfl, fun url racing member => ?_⟩
    by_cases isATRA : url = databaseURL .plain "ATRA"
    · simp only [w, World.withTwo, if_pos isATRA] at member
      rw [List.mem_singleton.mp member]
      decide
    · simp only [w, World.withTwo, if_neg isATRA] at member
      rw [List.mem_singleton.mp member]
      decide
  obtain ⟨row, found⟩ : ∃ row, Gorm.firstAssociation Environment.plain.operator
      (.hostMatches "cbra.web") {} copied.store = some row :=
    Option.isSome_iff_exists.mp (by decide)
  set a := Gorm.scanAssociation Environment.plain.sessionOffset {} row with isA
  have resolves : (eval .plain (associationService.firstByHost "cbra.web") copied).1 =
      .ok (a, none) := by
    change (eval .plain (Db.AssociationService.firstByHost "cbra.web") copied).1 = _
    rw [eval_firstByHost, found]
  have isCBRA : row.acronym = "CBRA" := by
    have all : ∀ row ∈ copied.store.associations, row.acronym = "CBRA" := by decide
    exact all row (mem_of_firstBy found).1
  have associations : both.store.associations.length = 2 := by decide
  have three : both.store.events.length = 3 := by decide
  clear_value copied both
  have live : ∀ label, pool.IsLive label → label ≠ a.acronym := by
    rintro label ⟨program, member, live⟩
    obtain ⟨-, isEnded⟩ := Prod.mk.inj (List.mem_singleton.mp member)
    rw [isEnded] at live
    exact absurd live (Pool.not_live_ended _)
  have started : ∀ label, .started label ∈ .started "ATRA" :: further → label ≠ a.acronym := by
    intro label member
    rcases List.mem_cons.mp member with same | later
    · cases same
      change "ATRA" ≠ row.acronym
      rw [isCBRA]
      decide
    · obtain ⟨call, impossible⟩ := own _ later
      cases impossible
  obtain ⟨resolvesStill, -, -, events⟩ :=
    copies_leave_others_alone .plain new reached resolves live ran started
  exact ⟨associations, three, a, isCBRA, resolves, resolvesStill, events⟩

end DawnPatrol.Requests

import DawnPatrol.Requests.Commuting

/-!
# The capitalisation of an acronym

A data source name is built from the upper and the lower case of an acronym,
and the collation of the short names ignores case, so two spellings of an
acronym lead a copy to the same racing association. The Dawn Patrol store
compares acronyms as they are spelled. A copy under another spelling finds no
association, and the host and the name it brings are those of the first one.

The two spellings lead to the same rows and the same association exactly when
the association is refused under either spelling
(`copy_ignores_capitals_iff`).
-/

set_option autoImplicit false

namespace DawnPatrol.Requests

open Foundation Go Api Postgres Execution Db Rails RailsDb

/-! ## Two spellings of an association -/

section Placements

variable {env : Environment} {d : Delivery} {st next : Store}

/-- An association finds its place again after its delivery. -/
theorem owner_again (delivered : Delivered env d st next) :
    (placement d.association next).owner next.associationsIDSeq =
      (placement d.association st).owner st.associationsIDSeq := by
  by_cases refused : placement d.association st = .refused
  · have same : next.associations = st.associations := by
      simp [delivered.associations, refused, Placement.rows]
    rw [placement_congr same, refused]
    rfl
  · obtain ⟨row, member, acronym, idIs⟩ := delivered.row refused
    rw [placement_of_stored member acronym, ← idIs]
    rfl

/-- After a delivery, another spelling of its association ends with the same id
exactly when both spellings are refused. -/
theorem owner_respelled_iff (numbered : st.WellNumbered) (delivered : Delivered env d st next)
    {b : Association} (acronym : b.acronym ≠ d.association.acronym)
    (host : b.host = d.association.host) :
    (placement b next).owner next.associationsIDSeq =
        (placement d.association st).owner st.associationsIDSeq ↔
      placement d.association st = .refused ∧ placement b st = .refused := by
  have pos := st.associationsIDSeq_pos
  have rows := delivered.associations
  have seq := delivered.associationsIDSeq
  cases placeD : placement d.association st with
  | stored id =>
      refine iff_of_false ?_ (by simp)
      obtain ⟨row, member, acronymIs, rfl⟩ := row_of_placement_stored placeD
      have range := numbered.associations row member
      simp only [placeD, Placement.rows, List.append_nil, Placement.draws, Nat.cast_zero,
        add_zero] at rows seq
      rw [placement_congr rows, seq]
      cases placeB : placement b st with
      | stored other =>
          obtain ⟨otherRow, otherMember, otherAcronym, rfl⟩ := row_of_placement_stored placeB
          intro same
          -- one row would have both spellings
          have equal := List.inj_on_of_nodup_map st.associationsPkey otherMember member same
          exact acronym (otherAcronym.symm.trans (equal ▸ acronymIs))
      | fresh =>
          simp only [Placement.owner]
          omega
      | refused =>
          simp only [Placement.owner]
          omega
  | fresh =>
      refine iff_of_false ?_ (by simp)
      simp only [placeD, Placement.rows] at rows
      by_cases stored : b.acronym ∈ st.associations.map AssociationRow.acronym
      · obtain ⟨row, member, acronymIs⟩ := List.mem_map.mp stored
        have inNext : row ∈ next.associations := rows ▸ List.mem_append_left _ member
        have range := numbered.associations row member
        rw [placement_of_stored inNext acronymIs]
        simp only [Placement.owner]
        omega
      · -- the delivered row has the host
        have refused : placement b next = .refused := by
          refine placement_eq_refused_iff.mpr ⟨?_, .inl ?_⟩
          · simpa [rows, Gorm.associationRow, acronym] using stored
          · simp [rows, Gorm.associationRow, host]
        rw [refused]
        simp only [Placement.owner]
        omega
  | refused =>
      simp only [placeD, Placement.rows, List.append_nil, Placement.draws, Nat.cast_one]
        at rows seq
      rw [placement_congr rows, seq]
      cases placeB : placement b st with
      | stored id =>
          obtain ⟨row, member, -, rfl⟩ := row_of_placement_stored placeB
          have range := numbered.associations row member
          refine iff_of_false ?_ (by simp)
          simp only [Placement.owner]
          omega
      | fresh =>
          refine iff_of_false ?_ (by simp)
          simp only [Placement.owner]
          omega
      | refused => exact iff_of_true rfl ⟨rfl, rfl⟩

/-- A delivery that is refused leaves the tables alone. -/
theorem tables_of_refused (delivered : Delivered env d st next)
    (refused : placement d.association st = .refused) :
    next.associations = st.associations ∧ next.events = st.events := by
  constructor
  · simp [delivered.associations, refused, Placement.rows]
  · simp [delivered.events, refused, Placement.owner, Delivery.rows]

end Placements

/-! ## Copies under two spellings -/

/-- The collation of short names ignores case. -/
def CollationIgnoresCase (env : Environment) : Prop :=
  ∀ stored first second, Respelled first second →
    env.collatesTo stored first = env.collatesTo stored second

/-- The world after a copy. -/
def copiedWorld (env : Environment) (script : Script) (w : World) (acronym : String) : World :=
  (run env (copyRequest env acronym) ⟨w, script⟩).2.world

/-- Copies under two spellings lead to the same rows up to the ids, and a copy
under the second spelling finds the association of one under the first. -/
structure IgnoresCapitals (env : Environment) (script : Script) (w : World) (a b : String) :
    Prop where
  sameRows : ∃ associationIDs eventIDs, EqualUpToIDs associationIDs eventIDs
    (copiedWorld env script w a).store (copiedWorld env script w b).store
  sameAssociation : ∀ racing, Reaches env script (w.rails (databaseURL env a)) a racing →
    ∃ first second : Association,
      (run env (associationService.firstOrCreate
        (RacingAssociationService.copiedAssociation env a racing)) ⟨w, script⟩).1 = .ok first ∧
      (run env (associationService.firstOrCreate
        (RacingAssociationService.copiedAssociation env b racing))
          ⟨copiedWorld env script w a, script⟩).1 = .ok second ∧
      first.id = second.id

/-- Neither spelling of an association is stored, and a stored row has its host
or its name. -/
structure RefusedUnderBoth (env : Environment) (racing : RacingAssociation) (a b : String)
    (st : Store) : Prop where
  first : a ∉ st.associations.map AssociationRow.acronym
  second : b ∉ st.associations.map AssociationRow.acronym
  taken : (RacingAssociationService.copiedAssociation env a racing).host ∈
      st.associations.map AssociationRow.host ∨
    (RacingAssociationService.copiedAssociation env a racing).name ∈
      st.associations.map AssociationRow.name

section Copies

variable {env : Environment} {script : Script} {w : World} {a b : String}

theorem databaseURL_respelled (respelled : Respelled a b) :
    databaseURL env a = databaseURL env b := by
  obtain ⟨lower, upper⟩ := respelled.mapped env.unicode
  simp only [databaseURL, respelled.eq_empty_iff, lower, upper]

/-- A copy reaches the same racing association under both spellings. -/
theorem reaches_respelled (ignoresCase : CollationIgnoresCase env) (respelled : Respelled a b)
    {rails : RailsDatabase} {racing : RacingAssociation}
    (reaches : Reaches env script rails a racing) : Reaches env script rails b racing := by
  have opens := reaches.opens
  have found := reaches.found
  rw [databaseURL_respelled respelled] at opens
  have sameFirst : firstRacingAssociation env a rails = firstRacingAssociation env b rails := by
    simp only [firstRacingAssociation, ignoresCase _ _ _ respelled]
  simp only [racingAssociationFound, sameFirst] at found
  exact ⟨opens, found⟩

theorem EqualUpToIDs.of_same {first second : Store}
    (associations : first.associations = second.associations)
    (events : first.events = second.events) :
    ∃ associationIDs eventIDs, EqualUpToIDs associationIDs eventIDs first second := by
  refine ⟨.refl ℤ, .refl ℤ, ?_, ?_⟩
  · rw [← associations]
    exact (EqualUpToIDs.refl first).associations
  · rw [← events]
    exact (EqualUpToIDs.refl first).events

theorem copiedWorld_store (acronym : String) :
    (copiedWorld env script w acronym).store =
      (copyEffect env script (w.rails (databaseURL env acronym)) acronym w.store).2 := by
  obtain ⟨conns, nextConn, later, ran⟩ := run_copy env acronym ⟨w, script⟩
  simp only [copiedWorld, ran]

/-- What `FirstOrCreate` answers when no statement fails. -/
theorem answer_of_placement (succeed : StatementsSucceed script) (numbered : w.store.WellNumbered)
    {association : Association} (named : association.acronym ≠ "") (blank : association.id = 0) :
    ∃ found, (run env (associationService.firstOrCreate association) ⟨w, script⟩).1 = .ok found ∧
      found.id = (placement association w.store).owner w.store.associationsIDSeq := by
  have effect := (@firstOrCreate_placement env association w.store numbered named blank).1
  refine ⟨_, congrArg Prod.fst (run_firstOrCreate env association ⟨w, script⟩), ?_⟩
  simp only [succeed .firstAssociation (by decide) (by decide),
    succeed .createAssociation (by decide) (by decide)]
  exact effect

/-- The copies agree on the association exactly when it ends with the same id. -/
theorem sameAssociation_iff (succeed : StatementsSucceed script) (named : a ≠ "") (namedB : b ≠ "")
    (numbered : w.store.WellNumbered)
    (numberedAfter : (copiedWorld env script w a).store.WellNumbered)
    (racing : RacingAssociation) :
    (∃ first second : Association,
      (run env (associationService.firstOrCreate
        (RacingAssociationService.copiedAssociation env a racing)) ⟨w, script⟩).1 = .ok first ∧
      (run env (associationService.firstOrCreate
        (RacingAssociationService.copiedAssociation env b racing))
          ⟨copiedWorld env script w a, script⟩).1 = .ok second ∧
      first.id = second.id) ↔
    (placement (RacingAssociationService.copiedAssociation env b racing)
        (copiedWorld env script w a).store).owner
          (copiedWorld env script w a).store.associationsIDSeq =
      (placement (RacingAssociationService.copiedAssociation env a racing) w.store).owner
        w.store.associationsIDSeq := by
  obtain ⟨first, ranFirst, firstIs⟩ := @answer_of_placement env script w succeed numbered
    (RacingAssociationService.copiedAssociation env a racing) named rfl
  obtain ⟨second, ranSecond, secondIs⟩ := @answer_of_placement env script
    (copiedWorld env script w a) succeed numberedAfter
    (RacingAssociationService.copiedAssociation env b racing) namedB rfl
  rw [← firstIs, ← secondIs]
  constructor
  · rintro ⟨_, _, isFirst, isSecond, same⟩
    cases ranFirst.symm.trans isFirst
    cases ranSecond.symm.trans isSecond
    exact same.symm
  · exact fun same => ⟨first, second, ranFirst, ranSecond, same.symm⟩

/-- **A copy ignores the capitals of its acronym** exactly when the spellings are
equal, or it does not come as far as its association, or the association is
refused under both spellings. -/
theorem copy_ignores_capitals_iff (env : Environment) (ignoresCase : CollationIgnoresCase env)
    {origin : World} (new : origin.store = .empty)
    {pool : Pool Call Call.Answer PanicValue (Option GoError) World String}
    {actions : List (Action Call String)}
    (reached : Pool.Run (copyRules env False fun _ => True) ⟨origin, []⟩ actions pool)
    {a b : String} (respelled : Respelled a b) (named : a ≠ "") {script : Script}
    (succeed : StatementsSucceed script) :
    IgnoresCapitals env script pool.world a b ↔
      a = b ∨ ∀ racing, Reaches env script (pool.world.rails (databaseURL env a)) a racing →
        RefusedUnderBoth env racing a b pool.world.store := by
  obtain ⟨-, numbered⟩ := copies_keep Store.WellNumbered (fun _ => True)
    (fun _ _ _ _ step holds => step.wellNumbered holds) reached (.of_no_threads origin)
    (new ▸ .empty) (fun _ _ => trivial) (fun _ _ => trivial)
  set w := pool.world with wIs
  set rails := w.rails (databaseURL env a) with railsIs
  have sameURL := @databaseURL_respelled env a b respelled
  have storeA : (copiedWorld env script w a).store = (copyEffect env script rails a w.store).2 :=
    copiedWorld_store a
  have storeB : (copiedWorld env script w b).store = (copyEffect env script rails b w.store).2 := by
    rw [copiedWorld_store b, ← sameURL]
  by_cases reaching : ∃ racing, Reaches env script rails a racing
  · obtain ⟨racing, reaches⟩ := reaching
    have namedB : b ≠ "" := mt respelled.eq_empty_iff.mpr named
    have deliveredA := copyEffect_delivers succeed reaches named numbered
    have deliveredB := copyEffect_delivers succeed (reaches_respelled ignoresCase respelled reaches)
      namedB numbered
    rw [← storeA] at deliveredA
    rw [← storeB] at deliveredB
    have agree := sameAssociation_iff succeed named namedB numbered
      (deliveredA.wellNumbered numbered) racing
    constructor
    · rintro ⟨-, same⟩
      by_contra neither
      obtain ⟨differ, accepted⟩ := not_or.mp neither
      have owners := (@owner_respelled_iff env _ _ _ numbered deliveredA
        (RacingAssociationService.copiedAssociation env b racing) (Ne.symm differ) rfl).mp
          (agree.mp (same racing reaches))
      refine accepted fun other otherReaches => ?_
      obtain rfl := reaches.unique otherReaches
      obtain ⟨first, taken⟩ := placement_eq_refused_iff.mp owners.1
      exact ⟨first, (placement_eq_refused_iff.mp owners.2).1, taken⟩
    · rintro (rfl | refused)
      · refine ⟨⟨_, _, .refl _⟩, fun other otherReaches => ?_⟩
        obtain rfl := reaches.unique otherReaches
        exact agree.mpr (owner_again deliveredA)
      · obtain ⟨first, second, taken⟩ := refused racing reaches
        have refusedA : placement (RacingAssociationService.copiedAssociation env a racing)
            w.store = .refused := placement_eq_refused_iff.mpr ⟨first, taken⟩
        have refusedB : placement (RacingAssociationService.copiedAssociation env b racing)
            w.store = .refused := placement_eq_refused_iff.mpr ⟨second, taken⟩
        obtain ⟨associationsA, eventsA⟩ := tables_of_refused deliveredA refusedA
        obtain ⟨associationsB, eventsB⟩ := tables_of_refused deliveredB refusedB
        refine ⟨EqualUpToIDs.of_same (associationsA.trans associationsB.symm)
          (eventsA.trans eventsB.symm), fun other otherReaches => ?_⟩
        obtain rfl := reaches.unique otherReaches
        refine agree.mpr ?_
        rw [placement_congr associationsA, refusedA, refusedB]
        rfl
  · have unreachedA : ∀ racing, ¬ Reaches env script rails a racing := not_exists.mp reaching
    have unreachedB : ∀ racing, ¬ Reaches env script rails b racing := fun racing reaches =>
      unreachedA racing (reaches_respelled ignoresCase respelled.symm reaches)
    refine iff_of_true ⟨?_, fun racing reaches => absurd reaches (unreachedA racing)⟩
      (.inr fun racing reaches => absurd reaches (unreachedA racing))
    rw [storeA, storeB, copyEffect_of_unreached unreachedA, copyEffect_of_unreached unreachedB]
    exact ⟨_, _, .refl _⟩

end Copies

/-- The collation of the plain environment ignores case. -/
theorem collationIgnoresCase_plain : CollationIgnoresCase .plain := by
  intro stored first second respelled
  simp only [Environment.plain, respelled.lower]

/-- After a copy of CBRA, two other spellings are both refused. -/
theorem other_spellings_refused :
    IgnoresCapitals .plain .clear (copiedWorld .plain .clear (.withEvent .empty "CBRA") "CBRA")
      "Cbra" "cbra" := by
  obtain ⟨actions, -, ran⟩ :=
    @run_alone .plain (fun _ => True) "CBRA" [] [] ⟨.withEvent .empty "CBRA", .clear⟩
  refine (copy_ignores_capitals_iff .plain collationIgnoresCase_plain
    (rfl : (World.withEvent .empty "CBRA").store = .empty)
    (.step (.start ⟨by decide, rfl, False.elim⟩) ran) ⟨by decide, by decide, by decide⟩ (by decide)
    statementsSucceed_clear).mpr (.inr ?_)
  intro racing reaches
  have finds : racingAssociationFound .plain .clear
      ((World.withEvent .empty "CBRA").rails (databaseURL .plain "Cbra")) "Cbra" =
        ({ id := 1, name := "CBRA", shortName := "CBRA" }, none) := by decide
  have found : racing = { id := 1, name := "CBRA", shortName := "CBRA" } :=
    congrArg Prod.fst (reaches.found.symm.trans finds)
  subst found
  exact ⟨by decide, by decide, .inl (by decide)⟩

/-- **A copy of CBRA and one of cbra** store rows with different acronyms. -/
theorem lower_case_copy_differs :
    ¬ ∀ env : Environment, CollationIgnoresCase env → ∀ origin : World, origin.store = .empty →
      ∀ (actions : List (Action Call String))
        (pool : Pool Call Call.Answer PanicValue (Option GoError) World String),
        Pool.Run (copyRules env False fun _ => True) ⟨origin, []⟩ actions pool →
          ∀ a b : String, Respelled a b → a ≠ "" →
            ∀ script, StatementsSucceed script → IgnoresCapitals env script pool.world a b := by
  intro ignores
  obtain ⟨-, same⟩ := ignores .plain collationIgnoresCase_plain (.withEvent .empty "CBRA") rfl _ _
    (.refl _) "CBRA" "cbra" ⟨by decide, by decide, by decide⟩ (by decide) .clear
    statementsSucceed_clear
  obtain ⟨first, second, ranFirst, ranSecond, sameID⟩ :=
    same { id := 1, name := "CBRA", shortName := "CBRA" }
      { opens := ⟨0, by simp [openOutcome, Script.clear], 0, by simp [openOutcome, Script.clear]⟩
        found := by decide }
  cases ranFirst
  cases ranSecond
  exact absurd sameID (by decide)

end DawnPatrol.Requests

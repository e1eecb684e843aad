import DawnPatrol.RailsDb.FaultlessCopy
import DawnPatrol.Foundation.BlockSwap
import DawnPatrol.Requests.Repeats

/-!
# Copies of different associations commute

Running one copy and then another, or the other way round, leads to stores
that are equal up to the ids that the sequences produced
(`copies_commute`). Each of the two associations finds the same place in the
store whether it comes first or second, because the host pattern of a copy is
made from its short name, and short names that differ ignoring case give
different names and different host patterns. So each order draws two adjacent
blocks of ids, and the blocks change places.
-/

set_option autoImplicit false

namespace DawnPatrol.Requests

open Foundation Go Api Postgres Execution Db Rails RailsDb

/-! ## Renaming ids -/

/-- A row of an association under other ids. -/
def renameAssociation (associationIDs : Equiv.Perm ℤ) (row : AssociationRow) : AssociationRow :=
  { row with id := associationIDs row.id }

/-- A row of an event under other ids. -/
def renameEvent (associationIDs eventIDs : Equiv.Perm ℤ) (row : EventRow) : EventRow :=
  { row with id := eventIDs row.id, associationID := associationIDs row.associationID }

/-- Two stores hold the same rows, up to a renaming of the ids. -/
structure EqualUpToIDs (associationIDs eventIDs : Equiv.Perm ℤ) (first second : Store) :
    Prop where
  associations :
    (first.associations.map (renameAssociation associationIDs)).Perm second.associations
  events : (first.events.map (renameEvent associationIDs eventIDs)).Perm second.events

theorem EqualUpToIDs.refl (st : Store) : EqualUpToIDs (.refl ℤ) (.refl ℤ) st st := by
  constructor
  · rw [show renameAssociation (.refl ℤ) = id from rfl, List.map_id]
  · rw [show renameEvent (.refl ℤ) (.refl ℤ) = id from rfl, List.map_id]

variable {env : Environment} {associationIDs eventIDs : Equiv.Perm ℤ}

/-- Rows whose ids are shifted by the renaming. -/
theorem map_newRows {owner next shift : ℤ} {events : List Rails.Event}
    (shifts : ∀ id, next ≤ id → id < next + events.length → eventIDs id = id + shift) :
    (newRows next (events.map (converted env owner))).map (renameEvent associationIDs eventIDs) =
      newRows (next + shift) (events.map (converted env (associationIDs owner))) := by
  induction events generalizing next with
  | nil => rfl
  | cons e events ih =>
      simp only [List.length_cons, Nat.cast_add, Nat.cast_one] at shifts
      have rest := @ih (next + 1) fun id above below => shifts id (by omega) (by omega)
      have here := shifts next le_rfl (by omega)
      simp only [List.map_cons, newRows, rest]
      rw [show next + 1 + shift = next + shift + 1 by omega]
      refine congrArg (· :: _) ?_
      simp only [renameEvent, Gorm.eventRow, here]
      rfl

theorem map_rows {d : Delivery} {owner next shift : ℤ} (zero : associationIDs 0 = 0)
    (shifts : ∀ id, next ≤ id → id < next + (d.rows env owner next).length →
      eventIDs id = id + shift) :
    (d.rows env owner next).map (renameEvent associationIDs eventIDs) =
      d.rows env (associationIDs owner) (next + shift) := by
  have blank : associationIDs owner = 0 ↔ owner = 0 := by
    rw [← zero, associationIDs.injective.eq_iff, zero]
  by_cases delivered : d.loads ∧ owner ≠ 0
  · simp only [Delivery.rows, if_pos delivered, length_newRows, List.length_map] at shifts
    rw [Delivery.rows, if_pos delivered, Delivery.rows,
      if_pos ⟨delivered.1, mt blank.mp delivered.2⟩]
    exact map_newRows shifts
  · rw [Delivery.rows, if_neg delivered, Delivery.rows,
      if_neg fun both => delivered ⟨both.1, mt blank.mpr both.2⟩]
    rfl

/-! ## The ids of two placements -/

section Blocks

variable {place : Placement} {next : ℤ} {count : ℕ} {a : Association}

/-- The ids of a placement that comes first move behind those of the second. -/
theorem owner_first (pos : 1 ≤ next) (known : ∀ id, place = .stored id → id < next) :
    blockSwap next place.draws count (place.owner next) = place.owner (next + count) := by
  cases place with
  | stored id => exact blockSwap_before (known id rfl)
  | refused => exact blockSwap_before pos
  | fresh => exact blockSwap_first le_rfl (lt_add_one next)

/-- The ids of a placement that comes second move to the front. -/
theorem owner_second (pos : 1 ≤ next) (known : ∀ id, place = .stored id → id < next) :
    blockSwap next count place.draws (place.owner (next + count)) = place.owner next := by
  cases place with
  | stored id => exact blockSwap_before (known id rfl)
  | refused => exact blockSwap_before pos
  | fresh =>
      refine (blockSwap_second le_rfl (by simp [Placement.draws])).trans ?_
      simp [Placement.owner]

theorem rows_first :
    (place.rows a next).map (renameAssociation (blockSwap next place.draws count)) =
      place.rows a (next + count) := by
  cases place with
  | stored id => rfl
  | refused => rfl
  | fresh =>
      have moved : blockSwap next 1 count next = next + count :=
        blockSwap_first le_rfl (by omega)
      simp [Placement.rows, Placement.draws, renameAssociation, Gorm.associationRow, moved]

theorem rows_second :
    (place.rows a (next + count)).map
        (renameAssociation (blockSwap next count place.draws)) = place.rows a next := by
  cases place with
  | stored id => rfl
  | refused => rfl
  | fresh =>
      have moved : blockSwap next count 1 (next + count) = next := by
        rw [blockSwap_second le_rfl (by omega)]
        omega
      simp [Placement.rows, Placement.draws, renameAssociation, Gorm.associationRow, moved]

end Blocks

/-! ## Two deliveries -/

variable {a b : Delivery} {st afterA afterB afterAB afterBA : Store}

/-- The rows that were there before keep their ids. -/
theorem map_old (numbered : st.WellNumbered) (firstA secondA firstE secondE : ℕ) :
    st.associations.map (renameAssociation (blockSwap st.associationsIDSeq firstA secondA)) =
        st.associations ∧
      st.events.map (renameEvent (blockSwap st.associationsIDSeq firstA secondA)
        (blockSwap st.eventsIDSeq firstE secondE)) = st.events := by
  constructor
  · conv_rhs => rw [← List.map_id st.associations]
    refine List.map_congr_left fun row member => ?_
    simp [renameAssociation, blockSwap_before (numbered.associations row member).2]
  · conv_rhs => rw [← List.map_id st.events]
    refine List.map_congr_left fun row member => ?_
    obtain ⟨owner, stored, same⟩ := List.mem_map.mp (st.eventsAssociationID row member)
    have ownerBelow := (numbered.associations owner stored).2
    rw [same] at ownerBelow
    simp [renameEvent, blockSwap_before (numbered.events row member), blockSwap_before ownerBelow]

/-- **Deliveries of different associations commute** up to the ids they draw. -/
theorem deliveries_commute (numbered : st.WellNumbered)
    (acronym : a.association.acronym ≠ b.association.acronym)
    (host : a.association.host ≠ b.association.host)
    (name : a.association.name ≠ b.association.name)
    (first : Delivered env a st afterA) (thenB : Delivered env b afterA afterAB)
    (second : Delivered env b st afterB) (thenA : Delivered env a afterB afterBA) :
    ∃ associationIDs eventIDs, EqualUpToIDs associationIDs eventIDs afterAB afterBA := by
  have placeB : placement b.association afterA = placement b.association st :=
    first.placement_eq acronym.symm host.symm name.symm
  have placeA : placement a.association afterB = placement a.association st :=
    second.placement_eq acronym host name
  set placedA := placement a.association st with placedAIs
  set placedB := placement b.association st with placedBIs
  set n := st.associationsIDSeq with nIs
  set k := st.eventsIDSeq with kIs
  have pos : 1 ≤ n := st.associationsIDSeq_pos
  have known : ∀ {c : Association} id, placement c st = .stored id → id < n := by
    intro c id place
    obtain ⟨row, member, rfl⟩ := List.mem_map.mp (mem_of_placement_stored place)
    exact (numbered.associations row member).2
  set rowsA := a.rows env (placedA.owner n) k with rowsAIs
  set rowsB := b.rows env (placedB.owner (n + placedA.draws)) (k + rowsA.length) with rowsBIs
  set associationIDs := blockSwap n placedA.draws placedB.draws with associationIDsIs
  set eventIDs := blockSwap k rowsA.length rowsB.length with eventIDsIs
  have zero : associationIDs 0 = 0 := blockSwap_before (by omega)
  have movedA : rowsA.map (renameEvent associationIDs eventIDs) =
      a.rows env (placedA.owner (n + placedB.draws)) (k + rowsB.length) := by
    rw [rowsAIs, map_rows zero fun id above below => blockSwap_first above below, associationIDsIs,
      owner_first pos fun id => known id]
  have movedB : rowsB.map (renameEvent associationIDs eventIDs) =
      b.rows env (placedB.owner n) k := by
    rw [rowsBIs, map_rows zero fun id above below =>
      (blockSwap_second above below).trans (sub_eq_add_neg _ _), associationIDsIs,
      owner_second pos fun id => known id, add_neg_cancel_right]
  have sameLength : (b.rows env (placedB.owner n) k).length = rowsB.length := by
    rw [← movedB, List.length_map]
  obtain ⟨oldAssociations, oldEvents⟩ :=
    map_old numbered placedA.draws placedB.draws rowsA.length rowsB.length
  refine ⟨associationIDs, eventIDs, ?_, ?_⟩
  · rw [thenB.associations, first.associations, first.associationsIDSeq, placeB, ← placedAIs,
      thenA.associations, second.associations, second.associationsIDSeq, placeA, ← placedBIs,
      List.map_append, List.map_append, oldAssociations, rows_first, rows_second,
      List.append_assoc, List.append_assoc]
    exact List.perm_append_comm.append_left _
  · rw [thenB.events, first.events, first.eventsIDSeq, first.associationsIDSeq, placeB,
      ← placedAIs, thenA.events, second.events, second.eventsIDSeq, second.associationsIDSeq,
      placeA, ← placedBIs, List.map_append, List.map_append, oldEvents, ← rowsAIs, ← rowsBIs,
      movedA, movedB, sameLength, List.append_assoc, List.append_assoc]
    exact List.perm_append_comm.append_left _

/-! ## Two copies -/

/-- **Copies of different associations commute.** From a store that copies have
reached from the empty one, two copies whose statements succeed and whose
racing associations have alphanumeric short names that differ ignoring case
lead, in either order, to the same rows up to the ids. -/
theorem copies_commute (env : Environment) {origin : World} (new : origin.store = .empty)
    {pool : Pool Call Call.Answer PanicValue (Option GoError) World String}
    {actions : List (Action Call String)}
    (reached : Pool.Run (copyRules env False fun _ => True) ⟨origin, []⟩ actions pool)
    {a b : String} (namedA : a ≠ "") (namedB : b ≠ "") {racingA racingB : RacingAssociation}
    (foundA : firstRacingAssociation env a (pool.world.rails (databaseURL env a)) = some racingA)
    (foundB : firstRacingAssociation env b (pool.world.rails (databaseURL env b)) = some racingB)
    (plainA : IsAlphanumeric racingA.shortName) (plainB : IsAlphanumeric racingB.shortName)
    (differ : Unicode.asciiOnly.lower racingA.shortName ≠
      Unicode.asciiOnly.lower racingB.shortName)
    {scriptA scriptB : Script} (succeedA : StatementsSucceed scriptA)
    (succeedB : StatementsSucceed scriptB) :
    let afterA := (run env (copyRequest env a) ⟨pool.world, scriptA⟩).2.world
    let afterAB := (run env (copyRequest env b) ⟨afterA, scriptB⟩).2.world
    let afterB := (run env (copyRequest env b) ⟨pool.world, scriptB⟩).2.world
    let afterBA := (run env (copyRequest env a) ⟨afterB, scriptA⟩).2.world
    ∃ associationIDs eventIDs,
      EqualUpToIDs associationIDs eventIDs afterAB.store afterBA.store := by
  intro afterA afterAB afterB afterBA
  obtain ⟨-, numbered⟩ := copies_keep Store.WellNumbered (fun _ => True)
    (fun _ _ _ _ step holds => step.wellNumbered holds) reached (.of_no_threads origin)
    (new ▸ .empty) (fun _ _ => trivial) (fun _ _ => trivial)
  set w := pool.world with wIs
  have ran : ∀ acronym (m : Machine), (run env (copyRequest env acronym) m).2.world.store =
        (copyEffect env m.script (m.world.rails (databaseURL env acronym)) acronym
          m.world.store).2 ∧
      (run env (copyRequest env acronym) m).2.world.rails = m.world.rails := by
    intro acronym m
    obtain ⟨conns, nextConn, script, ran⟩ := run_copy env acronym m
    simp only [ran, and_self]
  obtain ⟨storeA, railsA⟩ := ran a ⟨w, scriptA⟩
  obtain ⟨storeB, railsB⟩ := ran b ⟨w, scriptB⟩
  have storeAB := (ran b ⟨afterA, scriptB⟩).1
  have storeBA := (ran a ⟨afterB, scriptA⟩).1
  simp only [show afterA.rails = w.rails from railsA] at storeAB
  simp only [show afterB.rails = w.rails from railsB] at storeBA
  change afterA.store = _ at storeA
  change afterB.store = _ at storeB
  change afterAB.store = _ at storeAB
  change afterBA.store = _ at storeBA
  rcases copyEffect_cases succeedA namedA foundA with deliversA | leavesA
  · rcases copyEffect_cases succeedB namedB foundB with deliversB | leavesB
    · have first := deliversA w.store numbered
      have second := deliversB w.store numbered
      rw [← storeA] at first
      rw [← storeB] at second
      have thenB := deliversB afterA.store (first.wellNumbered numbered)
      have thenA := deliversA afterB.store (second.wellNumbered numbered)
      rw [← storeAB] at thenB
      rw [← storeBA] at thenA
      -- one acronym has one racing association
      have acronyms : a ≠ b := by
        rintro rfl
        exact differ (Option.some.inj (foundA.symm.trans foundB) ▸ rfl)
      exact deliveries_commute numbered acronyms (copiedHost_ne plainA plainB differ)
        (fun same => differ (congrArg Unicode.asciiOnly.lower same)) first thenB second thenA
    · rw [storeAB, leavesB, storeA, storeBA, storeB, leavesB]
      exact ⟨_, _, .refl _⟩
  · rw [storeBA, leavesA, storeB, storeAB, storeA, leavesA]
    exact ⟨_, _, .refl _⟩

/-- The two orders of copying two associations to the empty store. -/
theorem first_copies_commute :
    let w := World.withTwo .empty (databaseURL .plain "CBRA") "CBRA" "ATRA"
    let afterA := (run .plain (copyRequest .plain "CBRA") ⟨w, .clear⟩).2.world
    let afterB := (run .plain (copyRequest .plain "ATRA") ⟨w, .clear⟩).2.world
    ∃ associationIDs eventIDs, EqualUpToIDs associationIDs eventIDs
      (run .plain (copyRequest .plain "ATRA") ⟨afterA, .clear⟩).2.world.store
      (run .plain (copyRequest .plain "CBRA") ⟨afterB, .clear⟩).2.world.store :=
  copies_commute .plain (rfl : (World.withTwo .empty (databaseURL .plain "CBRA") "CBRA"
      "ATRA").store = .empty) (.refl _) (by decide) (by decide)
    (show _ = some ⟨.zero, 1, "CBRA", "CBRA", .zero⟩ by decide)
    (show _ = some ⟨.zero, 1, "ATRA", "ATRA", .zero⟩ by decide) (by decide) (by decide)
    (by decide) statementsSucceed_clear statementsSucceed_clear

end DawnPatrol.Requests

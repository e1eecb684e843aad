import Mathlib.Data.List.MinMax
import Mathlib.Data.List.Nodup

/-!
# Rows with a key

A table is a list of rows. `firstBy` selects, among the rows that satisfy a
condition, the one with the least key, as a query ordered by its primary key
and limited to one row does.

With unique keys the selected row is characterised by its key
(`firstBy_eq_some_iff`). It stays selected when rows with greater keys are
added (`firstBy_append_of_lt`). A column stays unique when a row brings a value
the other rows do not hold, by joining them (`nodup_map_concat`) or by taking
the place of the row with its key (`nodup_map_replaceBy`).

Rows that are written one after the other, each in the place of the one with
its key, leave a table as it was exactly when the last one written under each
key is the row that was there (`foldl_replaceBy_eq_self_iff`).
-/

set_option autoImplicit false

namespace DawnPatrol.Foundation

variable {α β κ : Type} [LinearOrder κ]

/-- The row with the least key among those that satisfy the condition. -/
def firstBy (key : α → κ) (condition : α → Bool) (rows : List α) : Option α :=
  (rows.filter condition).argmin key

section FirstBy

variable {key : α → κ} {condition : α → Bool} {rows : List α} {row : α}

theorem firstBy_eq_none_iff :
    firstBy key condition rows = none ↔ ∀ row ∈ rows, condition row = false := by
  simp [firstBy, List.argmin_eq_none, List.filter_eq_nil_iff]

theorem mem_of_firstBy (found : firstBy key condition rows = some row) :
    row ∈ rows ∧ condition row = true := by
  have member := List.argmin_mem (Option.mem_def.mpr found)
  exact List.mem_filter.mp member

theorem le_of_firstBy (found : firstBy key condition rows = some row) {other : α}
    (member : other ∈ rows) (holds : condition other = true) : key row ≤ key other :=
  List.le_of_mem_argmin (List.mem_filter.mpr ⟨member, holds⟩) found

/-- With unique keys, the selected row is the one with the least key. -/
theorem firstBy_eq_some_iff (unique : (rows.map key).Nodup) :
    firstBy key condition rows = some row ↔
      row ∈ rows ∧ condition row = true ∧
        ∀ other ∈ rows, condition other = true → key row ≤ key other := by
  constructor
  · intro found
    obtain ⟨member, holds⟩ := mem_of_firstBy found
    exact ⟨member, holds, fun other inRows selected => le_of_firstBy found inRows selected⟩
  · rintro ⟨member, holds, least⟩
    cases found : firstBy key condition rows with
    | none =>
        rw [firstBy_eq_none_iff] at found
        simp [found row member] at holds
    | some other =>
        obtain ⟨otherMember, otherHolds⟩ := mem_of_firstBy found
        have same : key other = key row :=
          le_antisymm (le_of_firstBy found member holds) (least other otherMember otherHolds)
        rw [List.inj_on_of_nodup_map unique otherMember member same]

/-- Rows with greater keys do not change what is selected. -/
theorem firstBy_append_of_lt {added : List α} (found : firstBy key condition rows = some row)
    (greater : ∀ other ∈ added, key row < key other) :
    firstBy key condition (rows ++ added) = some row := by
  induction added using List.reverseRecOn with
  | nil => simpa using found
  | append_singleton front last ih =>
      have before := ih fun other member => greater other (by simp [member])
      rw [← List.append_assoc]
      simp only [firstBy, List.filter_append] at before ⊢
      by_cases holds : condition last = true
      · have above : ¬ key last < key row := not_lt.mpr (greater last (by simp)).le
        simp only [List.filter_cons_of_pos holds, List.filter_nil]
        rw [List.argmin_concat, before]
        simp [above]
      · simpa [List.filter_cons_of_neg holds] using before

end FirstBy

/-- A column of unique values stays unique under a row with a new value. -/
theorem nodup_map_concat {column : α → β} {rows : List α} {row : α}
    (unique : (rows.map column).Nodup) (fresh : column row ∉ rows.map column) :
    ((rows ++ [row]).map column).Nodup := by
  rw [List.map_append, List.nodup_append]
  refine ⟨unique, List.nodup_singleton _, ?_⟩
  intro value old other new same
  have isNew : other = column row := by simpa using new
  exact fresh (isNew ▸ same ▸ old)

/-- Put a row in the place of the one with its key. -/
def replaceBy [DecidableEq κ] (key : α → κ) (row : α) (rows : List α) : List α :=
  rows.map fun old => if key old = key row then row else old

theorem map_key_replaceBy {key : α → κ} (row : α) (rows : List α) :
    (replaceBy key row rows).map key = rows.map key := by
  simp only [replaceBy, List.map_map]
  refine List.map_congr_left fun old _ => ?_
  simp only [Function.comp_apply]
  split <;> simp_all

theorem replaceBy_of_not_mem {key : α → κ} {row : α} {rows : List α}
    (missing : key row ∉ rows.map key) : replaceBy key row rows = rows := by
  simp only [replaceBy]
  conv_rhs => rw [← List.map_id rows]
  refine List.map_congr_left fun old member => ?_
  have other : key old ≠ key row := fun same => missing (same ▸ List.mem_map_of_mem member)
  simp [other]

/-- A column of unique values stays unique when a row with a value of its own
takes the place of the row with its key. -/
theorem nodup_map_replaceBy {key : α → κ} {column : α → β} {rows : List α} {row : α}
    (keys : (rows.map key).Nodup) (unique : (rows.map column).Nodup)
    (fresh : column row ∉ (rows.filter fun old => key old ≠ key row).map column) :
    ((replaceBy key row rows).map column).Nodup := by
  induction rows with
  | nil => exact .nil
  | cons old rest ih =>
      obtain ⟨keyFresh, restKeys⟩ := List.nodup_cons.mp keys
      obtain ⟨columnFresh, restUnique⟩ := List.nodup_cons.mp unique
      by_cases same : key old = key row
      · have kept := replaceBy_of_not_mem (same ▸ keyFresh)
        have others : (rest.filter fun other => key other ≠ key row) = rest :=
          List.filter_eq_self.mpr fun other member => by
            have : key other ≠ key row := fun equal =>
              keyFresh (same ▸ equal ▸ List.mem_map_of_mem member)
            simpa using this
        have rowFresh : column row ∉ rest.map column := by
          rw [List.filter_cons_of_neg (by simpa using same), others] at fresh
          exact fresh
        simp only [replaceBy] at kept
        simp only [replaceBy, List.map_cons, same, ↓reduceIte, kept]
        exact List.nodup_cons.mpr ⟨rowFresh, restUnique⟩
      · have split : column row ≠ column old ∧
            column row ∉ (rest.filter fun other => key other ≠ key row).map column := by
          simpa [List.filter_cons, same] using fresh
        have tail := ih restKeys restUnique split.2
        simp only [replaceBy] at tail
        simp only [replaceBy, List.map_cons, same, ↓reduceIte]
        refine List.nodup_cons.mpr ⟨fun clash => ?_, tail⟩
        obtain ⟨found, member, equal⟩ := List.mem_map.mp clash
        obtain ⟨other, inRest, rfl⟩ := List.mem_map.mp member
        split at equal
        · exact split.1 equal
        · exact columnFresh (equal ▸ List.mem_map_of_mem inRest)

/-! ## Rows written one after the other -/

/-- The last of the rows that are written under a key. -/
def lastBy [DecidableEq κ] (key : α → κ) (asked : κ) (written : List α) : Option α :=
  (written.filter fun row => key row = asked).getLast?

theorem key_of_lastBy {key : α → κ} {asked : κ} {written : List α} {row : α}
    (last : lastBy key asked written = some row) : key row = asked := by
  have member := List.mem_of_getLast? last
  simpa using (List.mem_filter.mp member).2

/-- Writing rows in the places of those with their keys leaves, under every key,
the last row that was written. -/
theorem foldl_replaceBy (key : α → κ) (written rows : List α) :
    written.foldl (fun table row => replaceBy key row table) rows =
      rows.map fun old => (lastBy key (key old) written).getD old := by
  induction written using List.reverseRecOn with
  | nil => simp [lastBy]
  | append_singleton earlier row ih =>
      rw [List.foldl_append, ih]
      simp only [List.foldl_cons, List.foldl_nil, replaceBy, List.map_map]
      refine List.map_congr_left fun old _ => ?_
      have sameKey : key ((lastBy key (key old) earlier).getD old) = key old := by
        cases last : lastBy key (key old) earlier with
        | none => rfl
        | some found => exact key_of_lastBy last
      simp only [Function.comp_apply, sameKey]
      by_cases same : key old = key row
      · simp [lastBy, List.filter_append, same]
      · simp [lastBy, List.filter_append, same, Ne.symm same]

theorem map_key_foldl_replaceBy (key : α → κ) (written rows : List α) :
    (written.foldl (fun table row => replaceBy key row table) rows).map key = rows.map key := by
  induction written generalizing rows with
  | nil => rfl
  | cons row written ih => rw [List.foldl_cons, ih, map_key_replaceBy]

/-- **Rows written one after the other** leave a table as it was exactly when the
last one under each key is the row that was there. -/
theorem foldl_replaceBy_eq_self_iff {key : α → κ} {written rows : List α} :
    written.foldl (fun table row => replaceBy key row table) rows = rows ↔
      ∀ old ∈ rows, ∀ row, lastBy key (key old) written = some row → row = old := by
  rw [foldl_replaceBy]
  conv_lhs => rhs; rw [← List.map_id rows]
  rw [List.map_inj_left]
  refine forall₂_congr fun old _ => ?_
  cases lastBy key (key old) written <;> simp

end DawnPatrol.Foundation

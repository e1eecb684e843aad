import DawnPatrol.Postgres.Migrations
import DawnPatrol.Postgres.Store

/-!
# The schema and the stores

The tables of the API are read as a database of the schema, cell by cell. The
version tables of the migration tools, which the API does not use, hold no rows
in it.

What a store carries as fields is what the schema asks of its rows: the database
of some rows conforms to the schema exactly when they are the rows of a store
(`Tables.conforms_iff`).
-/

set_option autoImplicit false

namespace DawnPatrol.Postgres

open Foundation.Schemas

/-! ## Rows as cells -/

/-- The cells of a row of `associations`, in the order of its columns. -/
def AssociationRow.cells (row : AssociationRow) : Row := [
  some (.number row.id),
  some (.text row.acronym),
  some (.text row.name),
  some (.text row.host),
  row.railsCreatedAt.map .instant,
  row.railsUpdatedAt.map .instant]

/-- The cells of a row of `events`, in the order of its columns. -/
def EventRow.cells (row : EventRow) : Row := [
  some (.number row.id),
  row.city.map .text,
  some (.text row.discipline),
  some (.text row.name),
  row.railsID.map .number,
  row.railsCreatedAt.map .instant,
  row.railsUpdatedAt.map .instant,
  some (.instant row.startsAt),
  row.state.map .text,
  some (.number row.associationID)]

theorem AssociationRow.cells_accepted (row : AssociationRow) :
    List.Forall₂ (fun column cell => column.accepts cell = true)
      (schemaCatalog.columns "associations") row.cells :=
  .cons rfl <| .cons rfl <| .cons rfl <| .cons rfl <|
    .cons (Column.accepts_map rfl (fun _ => rfl) row.railsCreatedAt) <|
    .cons (Column.accepts_map rfl (fun _ => rfl) row.railsUpdatedAt) .nil

theorem EventRow.cells_accepted (row : EventRow) :
    List.Forall₂ (fun column cell => column.accepts cell = true)
      (schemaCatalog.columns "events") row.cells :=
  .cons rfl <| .cons (Column.accepts_map rfl (fun _ => rfl) row.city) <| .cons rfl <| .cons rfl <|
    .cons (Column.accepts_map rfl (fun _ => rfl) row.railsID) <|
    .cons (Column.accepts_map rfl (fun _ => rfl) row.railsCreatedAt) <|
    .cons (Column.accepts_map rfl (fun _ => rfl) row.railsUpdatedAt) <|
    .cons rfl <| .cons (Column.accepts_map rfl (fun _ => rfl) row.state) <| .cons rfl .nil

section Keys

variable {α β : Type} {rows : List α} {refRows : List β}

theorem nodup_numbers {key : α → ℤ} :
    (rows.map fun row => Value.number (key row)).Nodup ↔ (rows.map key).Nodup := by
  rw [← List.nodup_map_iff (f := Value.number) fun _ _ same => Value.number.inj same, List.map_map]
  rfl

theorem nodup_texts {key : α → String} :
    (rows.map fun row => Value.text (key row)).Nodup ↔ (rows.map key).Nodup := by
  rw [← List.nodup_map_iff (f := Value.text) fun _ _ same => Value.text.inj same, List.map_map]
  rfl

theorem numbers_subset {key : α → ℤ} {refKey : β → ℤ} :
    (∀ value ∈ rows.map fun row => Value.number (key row),
        value ∈ refRows.map fun row => Value.number (refKey row)) ↔
      ∀ row ∈ rows, key row ∈ refRows.map refKey := by
  simp

end Keys

/-! ## Stores as databases -/

/-- What the tables and their sequences hold, whether or not the schema allows it. -/
structure Tables where
  associations : List AssociationRow
  events : List EventRow
  associationsIDSeq : ℤ
  eventsIDSeq : ℤ

/-- The tables of a store. -/
def Store.tables (st : Store) : Tables :=
  ⟨st.associations, st.events, st.associationsIDSeq, st.eventsIDSeq⟩

namespace Tables

/-- The tables as a database of the schema. -/
def database (tables : Tables) : Database where
  catalog := schemaCatalog
  rows t :=
    if t = "associations" then tables.associations.map AssociationRow.cells
    else if t = "events" then tables.events.map EventRow.cells
    else []
  next s :=
    if s = "associations_id_seq" then tables.associationsIDSeq
    else if s = "events_id_seq" then tables.eventsIDSeq
    else 1

variable {tables : Tables}

theorem values_associations {column : String} {value : AssociationRow → Value}
    (reads : ∀ row : AssociationRow,
      (row.cells[schemaCatalog.place "associations" column]?).join = some (value row)) :
    tables.database.values "associations" column = tables.associations.map value :=
  Database.values_of_cells rfl reads

theorem values_events {column : String} {value : EventRow → Value}
    (reads : ∀ row : EventRow,
      (row.cells[schemaCatalog.place "events" column]?).join = some (value row)) :
    tables.database.values "events" column = tables.events.map value :=
  Database.values_of_cells rfl reads

theorem associations_id :
    tables.database.values "associations" "id" = tables.associations.map (.number ·.id) :=
  values_associations fun _ => rfl

theorem associations_acronym :
    tables.database.values "associations" "acronym" = tables.associations.map (.text ·.acronym) :=
  values_associations fun _ => rfl

theorem associations_host :
    tables.database.values "associations" "host" = tables.associations.map (.text ·.host) :=
  values_associations fun _ => rfl

theorem associations_name :
    tables.database.values "associations" "name" = tables.associations.map (.text ·.name) :=
  values_associations fun _ => rfl

theorem events_id :
    tables.database.values "events" "id" = tables.events.map (.number ·.id) :=
  values_events fun _ => rfl

theorem events_associationID :
    tables.database.values "events" "association_id" =
      tables.events.map (.number ·.associationID) :=
  values_events fun _ => rfl

/-- Rows that conform to the schema are those of a store. -/
theorem exists_store (conforms : tables.database.Conforms) :
    ∃ st : Store, st.associations = tables.associations ∧ st.events = tables.events := by
  have indexed (name table column : String)
      (member : ⟨name, table, column, true⟩ ∈ schemaCatalog.indexes) :
      (tables.database.values table column).Nodup := conforms.indexes _ member rfl
  have constrained (name table column : String) (kind : ConstraintKind)
      (member : ⟨name, table, column, kind⟩ ∈ schemaCatalog.constraints) :
      tables.database.Satisfies ⟨name, table, column, kind⟩ := conforms.constraints _ member
  have associationsPkey := constrained "associations_pkey" "associations" "id" .primaryKey
    (by decide)
  have acronymIdx := indexed "associations_acronym_idx" "associations" "acronym" (by decide)
  have hostIdx := indexed "associations_host_idx" "associations" "host" (by decide)
  have nameIdx := indexed "associations_name_idx" "associations" "name" (by decide)
  have eventsPkey := constrained "events_pkey" "events" "id" .primaryKey (by decide)
  have owned := constrained "events_association_id" "events" "association_id"
    (.foreignKey "associations" "id") (by decide)
  simp only [Database.Satisfies, associations_id, events_id, events_associationID, nodup_numbers,
    numbers_subset] at associationsPkey eventsPkey owned
  rw [associations_acronym, nodup_texts] at acronymIdx
  rw [associations_host, nodup_texts] at hostIdx
  rw [associations_name, nodup_texts] at nameIdx
  exact ⟨⟨tables.associations, tables.events, 1, 1, associationsPkey, acronymIdx, hostIdx, nameIdx,
    eventsPkey, owned, le_rfl, le_rfl⟩, rfl, rfl⟩

end Tables

/-- What a store carries is what the schema asks. -/
theorem Store.conforms {tables : Tables} (st : Store)
    (associations : st.associations = tables.associations) (events : st.events = tables.events) :
    tables.database.Conforms := by
  refine ⟨fun t absent => ?_, fun s absent => ?_, ?_, ?_, ?_⟩
  · have known : schemaCatalog.hasTable "associations" ∧ schemaCatalog.hasTable "events" := by
      decide
    have notAssociations : t ≠ "associations" := fun same => absent (same ▸ known.1)
    have notEvents : t ≠ "events" := fun same => absent (same ▸ known.2)
    simp only [Tables.database, if_neg notAssociations, if_neg notEvents]
  · have known : "associations_id_seq" ∈ schemaCatalog.sequences.map Sequence.name ∧
        "events_id_seq" ∈ schemaCatalog.sequences.map Sequence.name := by
      decide
    have notAssociations : s ≠ "associations_id_seq" := fun same => absent (same ▸ known.1)
    have notEvents : s ≠ "events_id_seq" := fun same => absent (same ▸ known.2)
    simp only [Tables.database, if_neg notAssociations, if_neg notEvents]
  · intro t member row stored
    simp only [Tables.database, schemaCatalog, List.mem_cons, List.not_mem_nil, or_false] at member
    rcases member with rfl | rfl | rfl | rfl
    · obtain ⟨event, -, rfl⟩ := List.mem_map.mp stored
      exact event.cells_accepted
    · cases stored
    · cases stored
    · obtain ⟨association, -, rfl⟩ := List.mem_map.mp stored
      exact association.cells_accepted
  · intro index member unique
    simp only [Tables.database, schemaCatalog, originalCatalog, List.mem_append, List.mem_cons,
      List.not_mem_nil, or_false] at member
    rcases member with (rfl | rfl | rfl | rfl) | rfl | rfl | rfl
    -- the indexes of `events` are not unique
    · cases unique
    · cases unique
    · cases unique
    · cases unique
    · rw [Tables.associations_acronym, nodup_texts, ← associations]
      exact st.associationsAcronymIdx
    · rw [Tables.associations_name, nodup_texts, ← associations]
      exact st.associationsNameIdx
    · rw [Tables.associations_host, nodup_texts, ← associations]
      exact st.associationsHostIdx
  · intro constraint member
    simp only [Tables.database, schemaCatalog, originalCatalog, List.mem_append, List.mem_cons,
      List.not_mem_nil, or_false] at member
    rcases member with (rfl | rfl | rfl) | rfl | rfl
    · rw [Database.Satisfies, Tables.events_id, nodup_numbers, ← events]
      exact st.eventsPkey
    -- the version tables have no rows
    · exact .nil
    · exact .nil
    · rw [Database.Satisfies, Tables.associations_id, nodup_numbers, ← associations]
      exact st.associationsPkey
    · simp only [Database.Satisfies, Tables.events_associationID, Tables.associations_id,
        numbers_subset, ← associations, ← events]
      exact st.eventsAssociationID

/-- **Rows conform to the schema** exactly when they are those of a store. -/
theorem Tables.conforms_iff {tables : Tables} :
    tables.database.Conforms ↔
      ∃ st : Store, st.associations = tables.associations ∧ st.events = tables.events :=
  ⟨Tables.exists_store, fun ⟨st, associations, events⟩ => st.conforms associations events⟩

end DawnPatrol.Postgres

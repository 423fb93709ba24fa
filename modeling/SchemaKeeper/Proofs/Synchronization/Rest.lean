import SchemaKeeper.Proofs.Session.Steady
import SchemaKeeper.Proofs.Synchronization.Notices
import SchemaKeeper.Proofs.Synchronization.Tables

/-!
# Structures at rest

A table is at rest if there is nothing left that a synchronization without force would carry out:
each declared column is live, and its index is the declared one or one that stays. What remains to
be done is only noted, and `notices` are these records, worked out from the structure. They are the
log of a run on a structure at rest, as `Session.update_schema_rest` says.
-/

namespace SchemaKeeper

namespace Synchronization

open Session

variable {σ : Type} {b : Backend σ} {s : Structure} {options : SyncOptions}

/-- The notices on a declared column: on its definition and then on its index. A reserved column and
one that is not live have none. -/
def columnNotices (d : Dialect) (table : String) (live : List LiveColumn) (declared : Column) :
    List ChangeRecord :=
  if Identifier.isReserved declared.name then []
  else
    match live.find? fun c => c.name = declared.name with
    | none => []
    | some current =>
      definitionNotices d table declared current live ++ indexNotices d table declared current

/-- The notices on a table: on the columns that would go, and then on its declared ones. -/
def tableNotices (d : Dialect) (table : Table) (live : List LiveColumn) : List ChangeRecord :=
  (stale table live).map (dropNotice d table.name)
    ++ table.columns.flatMap (columnNotices d table.name live)

/-- The notices on declared tables in order. -/
def notices (d : Dialect) (s : Structure) (tables : List Table) : List ChangeRecord :=
  tables.flatMap fun table => tableNotices d table (s.columns table.name)

/-- The declared columns are live, each with the declared index or with one that stays. -/
def AtRest (columns : List Column) (live : List LiveColumn) : Prop :=
  ∀ declared ∈ columns, Identifier.isReserved declared.name = false →
    ∃ current, live.find? (fun c => c.name = declared.name) = some current ∧
      (current.spec.index = declared.index ∨ current.spec.index.isIndexed = true)

theorem column_notices_live {d : Dialect} {table : String} {live : List LiveColumn}
    {declared : Column} {current : LiveColumn}
    (hreserved : Identifier.isReserved declared.name = false)
    (hfind : live.find? (fun c => c.name = declared.name) = some current) :
    columnNotices d table live declared =
      definitionNotices d table declared current live ++ indexNotices d table declared current := by
  unfold columnNotices
  rw [hreserved, if_neg Bool.false_ne_true, hfind]

/-- All notices tell of changes that were skipped. -/
theorem notices_skipped {d : Dialect} {tables : List Table} {record : ChangeRecord}
    (h : record ∈ notices d s tables) : record.isSkipped = true := by
  obtain ⟨table, -, h⟩ := List.mem_flatMap.mp h
  rcases List.mem_append.mp h with h | h
  · obtain ⟨c, -, rfl⟩ := List.mem_map.mp h
    rfl
  · obtain ⟨declared, -, h⟩ := List.mem_flatMap.mp h
    unfold columnNotices at h
    split at h
    · cases h
    · split at h
      · cases h
      · rcases List.mem_append.mp h with h | h
        · obtain ⟨_, _, rfl⟩ := mem_definition_notices h
          rfl
        · obtain ⟨-, ⟨_, rfl⟩ | rfl⟩ := mem_index_notices h
          · rfl
          · rfl

/-- What was skipped was not applied. -/
theorem not_applied_of_skipped {record : ChangeRecord} (h : record.isSkipped = true) :
    record.outcome ≠ .applied := by
  intro happlied
  unfold ChangeRecord.isSkipped at h
  rw [happlied] at h
  cases h

/-- Records of skipped changes are nothing to a faithful engine. -/
theorem replays_skipped {records : List ChangeRecord}
    (hskipped : ∀ record ∈ records, record.isSkipped = true) :
    b.Replays s (records.map .recorded) s := by
  induction records with
  | nil => exact .nil s
  | cons record rest ih =>
      obtain ⟨hrecord, hrest⟩ := List.forall_mem_cons.mp hskipped
      exact .cons (.unapplied s record (not_applied_of_skipped hrecord)) (ih hrest)

/-- A session that only notes skipped changes leaves a faithful engine as it is. -/
theorem yields_of_notes {α : Type} {op : Session σ α} {a : α} {records : List ChangeRecord}
    (hop : op.Notes a records) (hskipped : ∀ record ∈ records, record.isSkipped = true) :
    Yields b s op fun a' s' => a' = a ∧ s' = s := by
  have hsame : ∀ {s'}, b.Replays s (records.map .recorded) s' → s' = s := by
    intro s' h
    clear hop
    induction records with
    | nil =>
        cases h
        rfl
    | cons record rest ih =>
        obtain ⟨hrecord, hrest⟩ := List.forall_mem_cons.mp hskipped
        cases h with
        | cons hstep hafter =>
            cases hstep with
            | applied _ _ happlied => exact absurd happlied (not_applied_of_skipped hrecord)
            | unapplied => exact ih hrest hafter
  intro db s' hready hreplays
  rw [(hop.shows db).2] at hreplays
  rw [hop db]
  exact ⟨a, rfl, hready, rfl, hsame hreplays⟩

section Notes

variable (hforce : options.force = false)

include hforce

/-- Without force columns that would go are only noted. -/
theorem drop_all_notes {table : String} {doomed : List LiveColumn}
    (hclean : ∀ c ∈ doomed, Identifier.IsClean c.name ∧
      ∀ index, c.indexName = some index → Identifier.IsClean index) (live : List LiveColumn) :
    (dropAll b options table doomed live).Notes (live, doomed.map (dropNotice b.dialect table))
      (doomed.map (dropNotice b.dialect table)) := by
  induction doomed with
  | nil => exact Notes.pure _
  | cons column rest ih =>
      obtain ⟨⟨hname, hindex⟩, hrest⟩ := List.forall_mem_cons.mp hclean
      rw [drop_all_cons, drop_of_clean hname hindex]
      refine (apply_notes hforce rfl).bind ?_
      exact (ih hrest).map fun p : Progress => (p.1, dropNotice b.dialect table column :: p.2)

/-- Without force a column at rest is only noted. -/
theorem sync_column_notes {table : String} {declared : Column} {current : LiveColumn}
    {live : List LiveColumn} (hreserved : Identifier.isReserved declared.name = false)
    (hfind : live.find? (fun c => c.name = declared.name) = some current)
    (hindex : current.spec.index = declared.index ∨ current.spec.index.isIndexed = true)
    (after : String) :
    (syncColumn b options table after declared live).Notes
      (live, columnNotices b.dialect table live declared)
      (columnNotices b.dialect table live declared) := by
  rw [sync_column_some hfind, column_notices_live hreserved hfind]
  refine (redefine_notes hforce table declared current live).bind ?_
  dsimp only
  exact (sync_index_notes hforce hfind hindex).map fun q : Progress =>
    (q.1, definitionNotices b.dialect table declared current live ++ q.2)

/-- Without force columns at rest are only noted. -/
theorem sync_columns_notes {table : String} {columns : List Column} {live : List LiveColumn}
    (hrest : AtRest columns live) (after : String) :
    (syncColumns b options table after columns live).Notes
      (columns.flatMap (columnNotices b.dialect table live))
      (columns.flatMap (columnNotices b.dialect table live)) := by
  induction columns generalizing after with
  | nil => exact Notes.pure _
  | cons declared rest ih =>
      obtain ⟨hdeclared, hrest⟩ := List.forall_mem_cons.mp hrest
      rw [sync_columns_cons, List.flatMap_cons]
      cases hreserved : Identifier.isReserved declared.name with
      | true =>
          have hnone : columnNotices b.dialect table live declared = [] := by
            rw [columnNotices, hreserved, if_pos rfl]
          rw [hnone, if_pos rfl]
          exact ih hrest after
      | false =>
          obtain ⟨current, hfind, hindex⟩ := hdeclared hreserved
          rw [if_neg Bool.false_ne_true]
          refine (sync_column_notes hforce hreserved hfind hindex after).bind ?_
          dsimp only
          exact (ih hrest declared.name).map _

end Notes

/-- A declared table is there, and it is at rest. -/
structure RestsIn (s : Structure) (table : Table) : Prop where
  present : (s table.name).isSome = true
  clean : Identifier.IsClean table.name
  settleable : Settleable table (s.columns table.name)
  rest : AtRest table.columns (s.columns table.name)

theorem RestsIn.columns_eq {table : Table} (h : RestsIn s table) :
    s table.name = some (s.columns table.name) := by
  obtain ⟨live, hlive⟩ := Option.isSome_iff_exists.mp h.present
  rw [Structure.columns, hlive, Option.getD_some]

/-- Without force a table at rest is only noted. -/
theorem sync_table_rest (hforce : options.force = false) {table : Table} (h : RestsIn s table) :
    Yields b s (syncTable b options table true) fun log s' =>
      log = tableNotices b.dialect table (s.columns table.name) ∧ s' = s := by
  have hskipped : ∀ {records}, records ⊆ tableNotices b.dialect table (s.columns table.name) →
      ∀ record ∈ records, record.isSkipped = true := by
    intro records hrecords record hrecord
    have hnotice : record ∈ notices b.dialect s [table] :=
      List.mem_flatMap.mpr ⟨table, List.mem_singleton_self _, hrecords hrecord⟩
    exact notices_skipped hnotice
  rw [sync_table_eq]
  have hcreated : Yields b s (ensureTable b options table.name true) fun created s' =>
      created = [] ∧ s' = s := Yields.pure ⟨rfl, rfl⟩
  refine hcreated.bind fun created s₁ h₁ => ?_
  obtain ⟨rfl, rfl⟩ := h₁
  refine (Yields.user_columns (Identifier.sanitize_clean h.clean)).bind fun live s₂ h₂ => ?_
  obtain ⟨rfl, hlive⟩ := h₂
  obtain rfl := hlive _ h.columns_eq
  refine (yields_of_notes (drop_all_notes hforce h.settleable.clean _)
    (hskipped (List.subset_append_left _ _))).bind fun p s₃ h₃ => ?_
  obtain ⟨rfl, rfl⟩ := h₃
  refine (yields_of_notes (sync_columns_notes hforce h.rest "id")
    (hskipped (List.subset_append_right _ _))).bind fun synced s₄ h₄ => Yields.pure ?_
  obtain ⟨rfl, rfl⟩ := h₄
  exact ⟨rfl, rfl⟩

/-- Without force tables at rest are only noted. -/
theorem sync_tables_rest (hforce : options.force = false) {tables : List Table}
    {existing : List String} (h : ∀ table ∈ tables, RestsIn s table)
    (hexisting : ∀ table ∈ tables, existing.contains table.name = true) :
    Yields b s (syncTables b options tables existing) fun log s' =>
      log = notices b.dialect s tables ∧ s' = s := by
  induction tables with
  | nil => exact Yields.pure ⟨rfl, rfl⟩
  | cons table rest ih =>
      obtain ⟨htable, hrest⟩ := List.forall_mem_cons.mp h
      obtain ⟨hexists, hexisting⟩ := List.forall_mem_cons.mp hexisting
      rw [sync_tables_cons, hexists, if_pos rfl]
      refine (sync_table_rest hforce htable).bind fun records s₁ h₁ => ?_
      obtain ⟨rfl, rfl⟩ := h₁
      refine (ih hrest hexisting).bind fun others s₂ h₂ => Yields.pure ?_
      obtain ⟨rfl, rfl⟩ := h₂
      exact ⟨rfl, rfl⟩

end Synchronization

/-- Without force a run on a structure at rest gives the notices on it and leaves it as it is. -/
theorem Session.update_schema_rest {σ : Type} {b : Backend σ} {s : Structure} {schema : Schema}
    {options : SyncOptions} (hforce : options.force = false)
    (h : ∀ table ∈ schema.tables, Synchronization.RestsIn s table) :
    Yields b s (updateSchema b schema options) fun log s' =>
      log = Synchronization.notices b.dialect s schema.tables ∧ s' = s := by
  unfold updateSchema
  refine Yields.tables.bind fun existing mid hmid => ?_
  obtain ⟨rfl, hexisting⟩ := hmid
  refine Synchronization.sync_tables_rest hforce h fun table htable => ?_
  exact List.contains_iff_mem.mpr ((hexisting table.name).mpr (h table htable).present)

end SchemaKeeper

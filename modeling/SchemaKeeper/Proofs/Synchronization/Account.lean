import SchemaKeeper.Proofs.Session.Journal

/-!
# The account of a synchronization

The log that a synchronization gives is the list of changes that it recorded, in their order, and
what it executes are the statements of the applied ones among them. `update_schema_accounts` says so
of the whole; every part of a synchronization adds its own records to those before it.
-/

namespace SchemaKeeper

namespace Synchronization

open Session

variable {σ : Type}

instance grows_execute_all (b : Backend σ) (statements : List Ddl) :
    Grows (executeAll b statements) := by
  induction statements with
  | nil => exact grows_pure ()
  | cons s rest ih =>
      exact inferInstanceAs (Grows (execute b (.ddl s) >>= fun _ => executeAll b rest))

instance grows_apply (b : Backend σ) (options : SyncOptions) (change : Change) :
    Grows (apply b options change) := by
  unfold apply
  infer_instance

instance grows_skip (b : Backend σ) (reason : SkipReason) (change : Change) :
    Grows (skip b reason change) := by
  unfold skip
  infer_instance

/-- Dropping a list of columns is dropping the first one and then the others. -/
theorem drop_all_cons (b : Backend σ) (options : SyncOptions) (table : String)
    (column : LiveColumn) (rest live : List LiveColumn) :
    dropAll b options table (column :: rest) live =
      built (dropOf table column) >>= fun change =>
      apply b options change >>= fun record =>
      dropAll b options table rest
        (if record.isSkipped then live else live.filter fun c => c.name ≠ column.name) >>= fun p =>
      pure (p.1, record :: p.2) := rfl

instance grows_drop_all (b : Backend σ) (options : SyncOptions) (table : String)
    (doomed live : List LiveColumn) : Grows (dropAll b options table doomed live) := by
  induction doomed generalizing live with
  | nil => exact grows_pure (live, [])
  | cons column rest ih =>
      rw [drop_all_cons]
      infer_instance

instance grows_modify (b : Backend σ) (options : SyncOptions) (table : String) (declared : Column)
    (current : LiveColumn) (live : List LiveColumn) :
    Grows (modify b options table declared current live) := by
  unfold modify
  infer_instance

instance grows_redefine (b : Backend σ) (options : SyncOptions) (table : String)
    (declared : Column) (current : LiveColumn) (live : List LiveColumn) :
    Grows (redefine b options table declared current live) := by
  unfold redefine
  infer_instance

instance grows_add_index (b : Backend σ) (options : SyncOptions) (table : String)
    (declared : Column) (kept : Bool) (live : List LiveColumn) :
    Grows (addIndex b options table declared kept live) := by
  unfold addIndex
  infer_instance

/-- A live column's index is dropped before the declared one is added. -/
theorem sync_index_some {b : Backend σ} {options : SyncOptions} {table : String}
    {declared : Column} {live : List LiveColumn} {current : LiveColumn}
    (h : live.find? (fun c => c.name = declared.name) = some current) :
    syncIndex b options table declared live =
      if current.spec.index = declared.index then pure (live, [])
      else if current.spec.index.isIndexed then
        apply b options (.dropIndex table declared.name
          (current.indexName.getD (b.dialect.indexName table declared.name))) >>= fun record =>
        addIndex b options table declared record.isSkipped
          (if record.isSkipped then live
            else replaceFirst declared.name (fun c => ⟨{ c.spec with index := .none }, none⟩) live)
          >>= fun p =>
        pure (p.1, record :: p.2)
      else addIndex b options table declared false live := by
  unfold syncIndex
  rw [h]

instance grows_sync_index (b : Backend σ) (options : SyncOptions) (table : String)
    (declared : Column) (live : List LiveColumn) :
    Grows (syncIndex b options table declared live) := by
  cases h : live.find? fun c => c.name = declared.name with
  | none =>
      unfold syncIndex
      rw [h]
      infer_instance
  | some current =>
      rw [sync_index_some h]
      infer_instance

theorem sync_column_some {b : Backend σ} {options : SyncOptions} {table after : String}
    {declared : Column} {live : List LiveColumn} {current : LiveColumn}
    (h : live.find? (fun c => c.name = declared.name) = some current) :
    syncColumn b options table after declared live =
      redefine b options table declared current live >>= fun p =>
      syncIndex b options table declared p.1 >>= fun q =>
      pure (q.1, p.2 ++ q.2) := by
  unfold syncColumn
  rw [h]

theorem sync_column_none {b : Backend σ} {options : SyncOptions} {table after : String}
    {declared : Column} {live : List LiveColumn}
    (h : live.find? (fun c => c.name = declared.name) = none) :
    syncColumn b options table after declared live =
      apply b options (.addColumn table declared after) >>= fun record =>
      pure (insertAfter after (added b.dialect table declared) live, [record]) := by
  unfold syncColumn
  rw [h]

instance grows_sync_column (b : Backend σ) (options : SyncOptions) (table after : String)
    (declared : Column) (live : List LiveColumn) :
    Grows (syncColumn b options table after declared live) := by
  cases h : live.find? fun c => c.name = declared.name with
  | none =>
      rw [sync_column_none h]
      infer_instance
  | some current =>
      rw [sync_column_some h]
      infer_instance

theorem sync_columns_cons (b : Backend σ) (options : SyncOptions) (table after : String)
    (declared : Column) (rest : List Column) (live : List LiveColumn) :
    syncColumns b options table after (declared :: rest) live =
      if Identifier.isReserved declared.name then syncColumns b options table after rest live
      else
        syncColumn b options table after declared live >>= fun p =>
        syncColumns b options table declared.name rest p.1 >>= fun records =>
        pure (p.2 ++ records) := rfl

instance grows_sync_columns (b : Backend σ) (options : SyncOptions) (table after : String)
    (columns : List Column) (live : List LiveColumn) :
    Grows (syncColumns b options table after columns live) := by
  induction columns generalizing after live with
  | nil => exact grows_pure []
  | cons declared rest ih =>
      rw [sync_columns_cons]
      infer_instance

instance grows_ensure_table (b : Backend σ) (options : SyncOptions) (table : String)
    (present : Bool) : Grows (ensureTable b options table present) := by
  unfold ensureTable
  infer_instance

instance grows_live_columns (b : Backend σ) (options : SyncOptions) (table : String)
    (present : Bool) : Grows (liveColumns b options table present) := by
  unfold liveColumns
  infer_instance

theorem sync_table_eq (b : Backend σ) (options : SyncOptions) (table : Table) (present : Bool) :
    syncTable b options table present =
      ensureTable b options table.name present >>= fun created =>
      liveColumns b options table.name present >>= fun live =>
      dropAll b options table.name (stale table live) live >>= fun p =>
      syncColumns b options table.name "id" table.columns p.1 >>= fun synced =>
      pure (created ++ p.2 ++ synced) := rfl

instance grows_sync_table (b : Backend σ) (options : SyncOptions) (table : Table)
    (present : Bool) : Grows (syncTable b options table present) := by
  rw [sync_table_eq]
  infer_instance

theorem sync_tables_cons (b : Backend σ) (options : SyncOptions) (table : Table)
    (rest : List Table) (existing : List String) :
    syncTables b options (table :: rest) existing =
      syncTable b options table (existing.contains table.name) >>= fun records =>
      syncTables b options rest
        (if existing.contains table.name then existing else existing ++ [table.name])
        >>= fun others =>
      pure (records ++ others) := rfl

instance grows_sync_tables (b : Backend σ) (options : SyncOptions) (tables : List Table)
    (existing : List String) : Grows (syncTables b options tables existing) := by
  induction tables generalizing existing with
  | nil => exact grows_pure []
  | cons table rest ih =>
      rw [sync_tables_cons]
      infer_instance

/-- Executing statements records nothing and sends them in order, if all of them succeed. -/
theorem execute_all_events {b : Backend σ} {statements : List Ddl} {db : Handle σ}
    (h : ((executeAll b statements).run db).1 = .ok ()) :
    Event.records ((executeAll b statements).trace db) = [] ∧
      Event.commands ((executeAll b statements).trace db) = statements.map .ddl := by
  induction statements generalizing db with
  | nil => exact ⟨congrArg _ (trace_pure () db), congrArg _ (trace_pure () db)⟩
  | cons s rest ih =>
      change ((execute b (.ddl s) >>= fun _ => executeAll b rest).run db).1 = _ at h
      show Event.records ((execute b (.ddl s) >>= fun _ => executeAll b rest).trace db) = _ ∧
        Event.commands ((execute b (.ddl s) >>= fun _ => executeAll b rest).trace db) = _
      obtain ⟨count, hfirst, hrest⟩ := run_bind_ok h
      obtain ⟨hrecords, hcommands⟩ := execute_events hfirst
      obtain ⟨hrecords', hcommands'⟩ := ih hrest
      rw [trace_bind hfirst, Event.records_append, Event.commands_append, hrecords, hcommands,
        hrecords', hcommands']
      exact ⟨rfl, rfl⟩

/-- The events of a record that is put into the journal. -/
theorem note_events (record : ChangeRecord) (db : Handle σ) :
    (note record >>= fun _ => pure record).trace db = [.recorded record] := by
  rw [trace_bind rfl, trace_pure, List.append_nil]
  exact trace_eq rfl

/-- Carrying out a change adds its record to the account. -/
theorem apply_accounts (b : Backend σ) (options : SyncOptions) (change : Change)
    (before : List ChangeRecord) :
    (apply b options change).Accounts before fun record => before ++ [record] := by
  intro db record h
  unfold apply at h ⊢
  obtain ⟨⟨⟩, hexecuted, hnoted⟩ := run_bind_ok h
  obtain ⟨hrecords, hcommands⟩ := execute_all_events hexecuted
  cases hnoted
  rw [trace_bind hexecuted, note_events, Event.records_append, Event.commands_append, hrecords,
    hcommands]
  exact ⟨rfl, by simp [Event.commands, Event.records]⟩

/-- Skipping a change adds its record to the account and executes nothing. -/
theorem skip_accounts (b : Backend σ) (reason : SkipReason) (change : Change)
    (before : List ChangeRecord) :
    (skip b reason change).Accounts before fun record => before ++ [record] := by
  intro db record h
  unfold skip at h ⊢
  cases h
  rw [note_events]
  exact ⟨rfl, rfl⟩

theorem drop_all_accounts (b : Backend σ) (options : SyncOptions) (table : String)
    (doomed live : List LiveColumn) (before : List ChangeRecord) :
    (dropAll b options table doomed live).Accounts before fun p => before ++ p.2 := by
  induction doomed generalizing live before with
  | nil => exact .pure (List.append_nil before).symm
  | cons column rest ih =>
      rw [drop_all_cons]
      refine ((Quiet.built _).accounts before).bind fun change => ?_
      refine (apply_accounts b options change before).bind fun record => ?_
      refine (ih _ (before ++ [record])).bind fun p => .pure ?_
      rw [List.append_assoc, List.singleton_append]

theorem modify_accounts (b : Backend σ) (options : SyncOptions) (table : String)
    (declared : Column) (current : LiveColumn) (live : List LiveColumn)
    (before : List ChangeRecord) :
    (modify b options table declared current live).Accounts before fun p => before ++ p.2 := by
  unfold modify
  refine (apply_accounts b options _ before).bind fun record => ?_
  split
  · exact .pure rfl
  · split
    · exact .pure rfl
    · exact ((Quiet.user_columns b table).accounts _).bind fun _ => .pure rfl

theorem redefine_accounts (b : Backend σ) (options : SyncOptions) (table : String)
    (declared : Column) (current : LiveColumn) (live : List LiveColumn)
    (before : List ChangeRecord) :
    (redefine b options table declared current live).Accounts before fun p => before ++ p.2 := by
  unfold redefine
  split
  · exact modify_accounts b options table declared current live before
  · exact .pure (List.append_nil before).symm

theorem add_index_accounts (b : Backend σ) (options : SyncOptions) (table : String)
    (declared : Column) (kept : Bool) (live : List LiveColumn) (before : List ChangeRecord) :
    (addIndex b options table declared kept live).Accounts before fun p => before ++ p.2 := by
  unfold addIndex
  split
  · exact .pure (List.append_nil before).symm
  · split
    · exact (skip_accounts b _ _ before).bind fun _ => .pure rfl
    · exact (apply_accounts b options _ before).bind fun _ => .pure rfl

theorem sync_index_accounts (b : Backend σ) (options : SyncOptions) (table : String)
    (declared : Column) (live : List LiveColumn) (before : List ChangeRecord) :
    (syncIndex b options table declared live).Accounts before fun p => before ++ p.2 := by
  cases h : live.find? fun c => c.name = declared.name with
  | none =>
      unfold syncIndex
      rw [h]
      exact .pure (List.append_nil before).symm
  | some current =>
      rw [sync_index_some h]
      split
      · exact .pure (List.append_nil before).symm
      · split
        · refine (apply_accounts b options _ before).bind fun record => ?_
          refine (add_index_accounts b options table declared _ _ _).bind fun p => .pure ?_
          rw [List.append_assoc, List.singleton_append]
        · exact add_index_accounts b options table declared false live before

theorem sync_column_accounts (b : Backend σ) (options : SyncOptions) (table after : String)
    (declared : Column) (live : List LiveColumn) (before : List ChangeRecord) :
    (syncColumn b options table after declared live).Accounts before fun p => before ++ p.2 := by
  cases h : live.find? fun c => c.name = declared.name with
  | none =>
      rw [sync_column_none h]
      exact (apply_accounts b options _ before).bind fun _ => .pure rfl
  | some current =>
      rw [sync_column_some h]
      refine (redefine_accounts b options table declared current live before).bind fun p => ?_
      refine (sync_index_accounts b options table declared p.1 _).bind fun q => .pure ?_
      rw [List.append_assoc]

theorem sync_columns_accounts (b : Backend σ) (options : SyncOptions) (table after : String)
    (columns : List Column) (live : List LiveColumn) (before : List ChangeRecord) :
    (syncColumns b options table after columns live).Accounts before fun log => before ++ log := by
  induction columns generalizing after live before with
  | nil => exact .pure (List.append_nil before).symm
  | cons declared rest ih =>
      rw [sync_columns_cons]
      split
      · exact ih after live before
      · refine (sync_column_accounts b options table after declared live before).bind fun p => ?_
        refine (ih declared.name p.1 _).bind fun log => .pure ?_
        rw [List.append_assoc]

theorem sync_table_accounts (b : Backend σ) (options : SyncOptions) (table : Table)
    (present : Bool) (before : List ChangeRecord) :
    (syncTable b options table present).Accounts before fun log => before ++ log := by
  have hensure : (ensureTable b options table.name present).Accounts before
      fun log => before ++ log := by
    unfold ensureTable
    split
    · exact .pure (List.append_nil before).symm
    · exact (apply_accounts b options _ before).bind fun _ => .pure rfl
  have hlive : (liveColumns b options table.name present).Quiet := by
    unfold liveColumns
    split
    · exact Quiet.pure []
    · exact Quiet.user_columns b table.name
  rw [sync_table_eq]
  refine hensure.bind fun created => (hlive.accounts _).bind fun live => ?_
  refine (drop_all_accounts b options table.name _ live _).bind fun p => ?_
  refine (sync_columns_accounts b options table.name "id" table.columns p.1 _).bind
    fun synced => .pure ?_
  simp only [List.append_assoc]

theorem sync_tables_accounts (b : Backend σ) (options : SyncOptions) (tables : List Table)
    (existing : List String) (before : List ChangeRecord) :
    (syncTables b options tables existing).Accounts before fun log => before ++ log := by
  induction tables generalizing existing before with
  | nil => exact .pure (List.append_nil before).symm
  | cons table rest ih =>
      rw [sync_tables_cons]
      refine (sync_table_accounts b options table _ before).bind fun records => ?_
      refine (ih _ _).bind fun others => .pure ?_
      rw [List.append_assoc]

end Synchronization

/-- A synchronization gives the changes that it recorded and executes the statements of those that
were applied, in order and nothing else. -/
theorem Session.update_schema_accounts {σ : Type} (b : Backend σ) (schema : Schema)
    (options : SyncOptions) : (updateSchema b schema options).Accounts [] id := by
  unfold updateSchema
  refine ((Quiet.tables b).accounts []).bind fun existing => ?_
  exact Synchronization.sync_tables_accounts b options schema.tables existing []

/-- The log of a synchronization is what was recorded in its course. -/
theorem Session.update_schema_log {σ : Type} {b : Backend σ} {schema : Schema}
    {options : SyncOptions} {db : Handle σ} {log : List ChangeRecord}
    (hrun : ((updateSchema b schema options).run db).1 = .ok log) :
    log = Event.records ((updateSchema b schema options).trace db) :=
  (update_schema_accounts b schema options db log hrun).1.symm

end SchemaKeeper

import SchemaKeeper.Proofs.Synchronization.Convergence
import SchemaKeeper.Proofs.Synchronization.Drops
import SchemaKeeper.Proofs.Synchronization.Statements

/-!
# Build errors in a synchronization

Bringing columns about never fails for want of a name: declared names are clean. The one name that a
synchronization has to build in its course is that of a column it is to drop, which the engine
reports. `Session.update_schema_build_error` says where a build error comes from and what was sent
before it; `Session.blank_name_after_statements` shows a run that fails this way after it has
changed another table.
-/

namespace SchemaKeeper

variable {σ α β : Type}

/-- The engine's own calls never report that something could not be built. -/
structure Backend.BuildsNothing (b : Backend σ) : Prop where
  connect : ∀ config s e, (b.connect config s).1 ≠ .error (.build e)
  execute : ∀ command s e, (b.execute command s).1 ≠ .error (.build e)
  fetch : ∀ sql s e, (b.fetch sql s).1 ≠ .error (.build e)
  describe : ∀ table s e, (b.describe table s).1 ≠ .error (.build e)

/-- Scripted failures are the engine's, whatever the script. -/
theorem Script.builds_nothing (d : Dialect) : (Script.backend d).BuildsNothing := by
  have htake : ∀ {γ : Type} (subject : String) (fallback : γ)
      (queue : List (Except ScriptedFailure γ)) (e : BuildError),
      (Script.take subject fallback queue).1 ≠ .error (.build e) := by
    intro γ subject fallback queue e
    rcases queue with _ | ⟨f | a, rest⟩
    · rintro ⟨⟩
    · cases f <;> rintro ⟨⟩
    · rintro ⟨⟩
  exact ⟨fun _ _ => htake _ _ _, fun _ _ => htake _ _ _, fun _ _ => htake _ _ _,
    fun _ _ => htake _ _ _⟩

namespace Session

/-- Whatever the engine answers, the session does not end with a build error. -/
def Buildable (op : Session σ α) : Prop :=
  op.Shows fun result _ => ∀ e, result ≠ .error (.build e)

namespace Buildable

variable {b : Backend σ} {op : Session σ α}

protected theorem pure (a : α) : (pure a : Session σ α).Buildable :=
  Shows.pure fun _ => nofun

protected theorem bind {f : α → Session σ β} [Grows op] [∀ a, Grows (f a)] (hop : op.Buildable)
    (hf : ∀ a, (f a).Buildable) : (op >>= f).Buildable := by
  refine Shows.bind hop hf (fun e _ h e' he => ?_) fun _ _ _ _ _ h => h
  cases he
  exact h e' rfl

/-- A session that is followed by a value alone. -/
theorem map [Grows op] (hop : op.Buildable) (g : α → β) :
    (op >>= fun a => pure (g a)).Buildable :=
  hop.bind fun _ => .pure _

/-- What can be built is passed on. -/
theorem built_bind {r : Except BuildError α} {f : α → Session σ β} {a : α} (hr : r = .ok a)
    (hf : (f a).Buildable) : (Session.built r >>= f).Buildable := by
  subst hr
  exact hf

theorem attempt [Grows op] {sql : String} (hop : op.Buildable) :
    (Session.attempt sql op).Buildable :=
  Shows.attempt hop fun _ _ _ h => h

theorem call {c : Call} {reply : α → Reply} {answer : σ → Except Failure α × σ}
    (h : ∀ s e, (answer s).1 ≠ .error (.build e)) :
    (Session.call c reply answer).Buildable :=
  fun db => h db.engine

/-- Unusable settings are no build error. -/
theorem resolve : (Session.resolve : Session σ Config).Buildable := by
  intro db e
  show (Session.resolve db).1 ≠ _
  unfold Session.resolve
  split
  · rintro ⟨⟩
  · split
    · rintro ⟨⟩
    · next fault _ => cases fault <;> rintro ⟨⟩

theorem modify_connected (connected : Bool) :
    (modify fun db : Handle σ => { db with connected } : Session σ Unit).Buildable :=
  fun _ _ => nofun

theorem connect (hb : b.BuildsNothing) : (Session.connect b).Buildable := by
  have hopen : (openConnection b).Buildable :=
    resolve.bind fun config => (call (hb.connect config)).bind fun _ => modify_connected true
  intro db e
  by_cases hconnected : db.connected
  · have hrun : (Session.connect b).run db = (.ok (), db) := if_pos hconnected
    rw [hrun]
    rintro ⟨⟩
  · have hrun : (Session.connect b).run db = (openConnection b).run db := if_neg hconnected
    rw [hrun]
    exact hopen db e

theorem execute (hb : b.BuildsNothing) (command : Command) :
    (Session.execute b command).Buildable :=
  ((connect hb).bind fun _ => call (hb.execute command)).attempt

theorem tables (hb : b.BuildsNothing) : (Session.tables b).Buildable :=
  ((connect hb).bind fun _ => call (hb.fetch b.tablesSql)).attempt.map _

/-- A table of a clean name can be described. -/
theorem user_columns (hb : b.BuildsNothing) {table : String} (htable : Identifier.IsClean table) :
    (userColumns b table).Buildable := by
  refine map (built_bind (Identifier.sanitize_clean htable) ?_) _
  exact ((connect hb).bind fun _ => call (hb.describe table)).attempt

theorem note (record : ChangeRecord) :
    (Session.note record >>= fun _ => pure record : Session σ ChangeRecord).Buildable :=
  fun _ _ => nofun

end Buildable

end Session

namespace Synchronization

open Session

variable {b : Backend σ} {options : SyncOptions} {table : String} {declared : Column}

theorem execute_all_buildable (hb : b.BuildsNothing) (statements : List Ddl) :
    (executeAll b statements).Buildable := by
  induction statements with
  | nil => exact .pure ()
  | cons s rest ih => exact (Buildable.execute hb (.ddl s)).bind fun _ => ih

theorem apply_buildable (hb : b.BuildsNothing) (options : SyncOptions) (change : Change) :
    (apply b options change).Buildable :=
  (execute_all_buildable hb _).bind fun _ => .note _

theorem redefine_buildable (hb : b.BuildsNothing) (htable : Identifier.IsClean table)
    (current : LiveColumn) (live : List LiveColumn) :
    (redefine b options table declared current live).Buildable := by
  unfold redefine
  split
  · unfold modify
    refine (apply_buildable hb options _).bind fun record => ?_
    split
    · exact .pure _
    · split
      · exact .pure _
      · exact (Buildable.user_columns hb htable).map _
  · exact .pure _

theorem add_index_buildable (hb : b.BuildsNothing) (kept : Bool) (live : List LiveColumn) :
    (addIndex b options table declared kept live).Buildable := by
  unfold addIndex
  split
  · exact .pure _
  · split
    · exact Buildable.map (Buildable.note _) _
    · exact (apply_buildable hb options _).map _

theorem sync_index_buildable (hb : b.BuildsNothing) (live : List LiveColumn) :
    (syncIndex b options table declared live).Buildable := by
  cases hfind : live.find? fun c => c.name = declared.name with
  | none =>
      unfold syncIndex
      rw [hfind]
      exact .pure _
  | some current =>
      rw [sync_index_some hfind]
      split
      · exact .pure _
      · split
        · exact (apply_buildable hb options _).bind fun _ => (add_index_buildable hb _ _).map _
        · exact add_index_buildable hb false live

theorem sync_column_buildable (hb : b.BuildsNothing) (htable : Identifier.IsClean table)
    (after : String) (live : List LiveColumn) :
    (syncColumn b options table after declared live).Buildable := by
  cases hfind : live.find? fun c => c.name = declared.name with
  | none =>
      rw [sync_column_none hfind]
      exact (apply_buildable hb options _).map _
  | some current =>
      rw [sync_column_some hfind]
      exact (redefine_buildable hb htable current live).bind fun _ =>
        (sync_index_buildable hb _).map _

/-- Bringing declared columns about builds nothing that could fail. -/
theorem sync_columns_buildable (hb : b.BuildsNothing) (htable : Identifier.IsClean table)
    (after : String) (columns : List Column) (live : List LiveColumn) :
    (syncColumns b options table after columns live).Buildable := by
  induction columns generalizing after live with
  | nil => exact .pure _
  | cons declared rest ih =>
      rw [sync_columns_cons]
      split
      · exact ih after live
      · exact (sync_column_buildable hb htable after live).bind fun _ => (ih _ _).map _

theorem ensure_table_buildable (hb : b.BuildsNothing) (present : Bool) :
    (ensureTable b options table present).Buildable := by
  unfold ensureTable
  split
  · exact .pure _
  · exact (apply_buildable hb options _).map _

theorem live_columns_buildable (hb : b.BuildsNothing) (htable : Identifier.IsClean table)
    (present : Bool) : (liveColumns b options table present).Buildable := by
  unfold liveColumns
  split
  · exact .pure _
  · exact Buildable.user_columns hb htable

/-- Cleaning leaves nothing of the name of the column, or nothing of the name of its index, and the
error says so. -/
def Unnameable (column : LiveColumn) (e : BuildError) : Prop :=
  ∃ raw, (raw = column.name ∨ column.indexName = some raw) ∧
    (∀ c ∈ raw.toList, Identifier.isNameChar c = false) ∧ e = .emptyIdentifier raw

theorem blank_of_sanitize {raw : String} {e : BuildError} (h : Identifier.sanitize raw = .error e) :
    (∀ c ∈ raw.toList, Identifier.isNameChar c = false) ∧ e = .emptyIdentifier raw := by
  unfold Identifier.sanitize at h
  dsimp only at h
  split at h
  · next hempty =>
      cases h
      refine ⟨fun c hc => ?_, rfl⟩
      simpa using List.filter_eq_nil_iff.mp (List.isEmpty_iff.mp hempty) c hc
  · cases h

theorem unnameable_of_drop_of {column : LiveColumn} {e : BuildError}
    (h : dropOf table column = .error e) : Unnameable column e := by
  unfold dropOf at h
  cases hname : Identifier.sanitize column.name with
  | error e' =>
      rw [hname] at h
      cases h
      exact ⟨column.name, .inl rfl, blank_of_sanitize hname⟩
  | ok name =>
      rw [hname] at h
      cases hindex : column.indexName with
      | none =>
          rw [hindex] at h
          cases h
      | some index =>
          rw [hindex] at h
          change Identifier.sanitize index >>= _ = _ at h
          cases hclean : Identifier.sanitize index with
          | error e' =>
              rw [hclean] at h
              cases h
              exact ⟨index, .inr hindex, blank_of_sanitize hclean⟩
          | ok clean =>
              rw [hclean] at h
              cases h

/-- Dropping columns fails for want of a name only at one of them. -/
theorem drop_all_build_error (hb : b.BuildsNothing) (doomed live : List LiveColumn) :
    (dropAll b options table doomed live).Shows fun result _ => ∀ e, result = .error (.build e) →
      ∃ column ∈ doomed, Unnameable column e := by
  induction doomed generalizing live with
  | nil => exact Shows.pure fun _ => nofun
  | cons column rest ih =>
      rw [drop_all_cons]
      refine Shows.built_bind (fun e he e' he' => ?_) fun change _ => ?_
      · cases he'
        exact ⟨column, List.mem_cons_self, unnameable_of_drop_of he⟩
      · refine Shows.bind (apply_buildable hb options change) (fun record => (ih _).map _
          (fun _ _ h => ?_) fun _ _ _ => nofun) (fun _ _ h e he => ?_) fun _ _ _ _ _ h => h
        · intro e he
          cases he
          obtain ⟨doomed, hdoomed, hblank⟩ := h e rfl
          exact ⟨doomed, List.mem_cons_of_mem _ hdoomed, hblank⟩
        · cases he
          exact absurd rfl (h e)

/-- The change makes a table ready for its declared columns: it creates the table or drops a column
of it. -/
def ClearsTable (table : String) : Change → Prop
  | .createTable t | .dropColumn t _ _ => t = table
  | _ => False

/-- A build error in a table comes from a column that is to be dropped, before any declared column
is brought about. -/
def FailsAtStale (table : Table) (result : Except Failure (List ChangeRecord))
    (events : List Event) : Prop :=
  ∀ e, result = .error (.build e) →
    (∃ column, Event.Reports table.name column events ∧ Undeclared table column ∧
      Unnameable column e) ∧
    ∀ event ∈ events, RecordsOnly (ClearsTable table.name) event

/-- Once its live columns are known, a table fails for want of a name only at one that is to be
dropped: the declared columns, which follow, cannot fail this way. -/
theorem columns_build_error (hb : b.BuildsNothing) {table : Table}
    (htable : Identifier.IsClean table.name) (created : List ChangeRecord)
    (live : List LiveColumn) :
    (dropAll b options table.name (stale table live) live >>= fun p =>
      syncColumns b options table.name "id" table.columns p.1 >>= fun synced =>
      pure (created ++ p.2 ++ synced)).Shows fun result events => ∀ e,
        result = .error (.build e) → (∃ column ∈ stale table live, Unnameable column e) ∧
          ∀ event ∈ events, RecordsOnly (ClearsTable table.name) event := by
  have hdrop : (dropAll b options table.name (stale table live) live).Obeys fun _ events =>
      ∀ event ∈ events, RecordsOnly (ClearsTable table.name) event :=
    drop_all_obeys (records_only_cumulative _) (fun _ _ _ _ _ => admits_records_only rfl) live
  refine Shows.bind (hdrop.and (drop_all_build_error hb _ live))
    (fun p => (sync_columns_buildable hb htable "id" table.columns p.1).map _) ?_ ?_
  · rintro _ events ⟨hevents, hblank⟩ e ⟨⟩
    exact ⟨hblank e rfl, hevents⟩
  · rintro _ _ _ _ - h e he
    exact absurd he (h e)

theorem sync_table_build_error (hb : b.BuildsNothing) {table : Table}
    (htable : Identifier.IsClean table.name) (present : Bool) :
    (syncTable b options table present).Shows (FailsAtStale table) := by
  have hinv := records_only_cumulative (ClearsTable table.name)
  have hensure : (ensureTable b options table.name present).Obeys fun _ events =>
      ∀ event ∈ events, RecordsOnly (ClearsTable table.name) event :=
    ensure_table_obeys hinv (admits_records_only rfl) present
  have hlive : (liveColumns b options table.name present).Obeys fun _ events =>
      ∀ event ∈ events, RecordsOnly (ClearsTable table.name) event :=
    .of_quiet hinv (live_columns_quiet present)
  have hread : ∀ created : List ChangeRecord,
      (liveColumns b options table.name present >>= fun live =>
        dropAll b options table.name (stale table live) live >>= fun p =>
        syncColumns b options table.name "id" table.columns p.1 >>= fun synced =>
        pure (created ++ p.2 ++ synced)).Shows (FailsAtStale table) := by
    intro created
    refine Shows.bind ((hlive.and (live_columns_buildable hb htable present)).and
      (live_columns_reported b options table.name present))
      (columns_build_error hb htable created) ?_ ?_
    · rintro _ _ ⟨⟨-, h⟩, -⟩ e ⟨⟩
      exact absurd rfl (h e)
    · rintro live first _ second ⟨⟨hfirst, -⟩, hreported⟩ hsecond e he
      obtain ⟨⟨column, hcolumn, hblank⟩, hevents⟩ := hsecond e he
      obtain ⟨hmem, hstale⟩ := List.mem_filter.mp hcolumn
      obtain ⟨hreports, hunreserved⟩ := hreported live rfl column hmem
      refine ⟨⟨column, hreports.mono (List.subset_append_left _ _),
        ⟨by simpa using hstale, hunreserved⟩, hblank⟩, ?_⟩
      exact List.forall_mem_append.mpr ⟨hfirst, hevents⟩
  rw [sync_table_eq]
  refine Shows.bind (hensure.and (ensure_table_buildable hb present)) hread ?_ ?_
  · rintro _ _ ⟨-, h⟩ e ⟨⟩
    exact absurd rfl (h e)
  · rintro _ first _ second ⟨hfirst, -⟩ hsecond e he
    obtain ⟨⟨column, hreports, hblank⟩, hevents⟩ := hsecond e he
    exact ⟨⟨column, hreports.mono (List.subset_append_right _ _), hblank⟩,
      List.forall_mem_append.mpr ⟨hfirst, hevents⟩⟩

/-- A build error in a synchronization comes from a column of some table that is to be dropped. What
was recorded before are changes to earlier tables and changes that make this one ready. -/
def FailsAmong (tables : List Table) (result : Except Failure (List ChangeRecord))
    (events : List Event) : Prop :=
  ∀ e, result = .error (.build e) → ∃ before table after, tables = before ++ table :: after ∧
    (∃ column, Event.Reports table.name column events ∧ Undeclared table column ∧
      Unnameable column e) ∧
    ∀ event ∈ events, RecordsOnly (fun change => change.table ∈ before.map Table.name ∨
      ClearsTable table.name change) event

theorem sync_tables_build_error (hb : b.BuildsNothing) {tables : List Table}
    (htables : ∀ table ∈ tables, Identifier.IsClean table.name) (existing : List String) :
    (syncTables b options tables existing).Shows (FailsAmong tables) := by
  induction tables generalizing existing with
  | nil => exact Shows.pure fun _ => nofun
  | cons table rest ih =>
      obtain ⟨htable, hrest⟩ := List.forall_mem_cons.mp htables
      have hscope : ∀ present, (syncTable b options table present).Obeys fun _ events =>
          ∀ event ∈ events, RecordsOnly (fun change => change.table = table.name) event :=
        sync_table_obeys (records_only_cumulative _) fun _ h => admits_records_only h
      have hothers : ∀ existing (records : List ChangeRecord),
          (syncTables b options rest existing >>= fun others => pure (records ++ others)).Shows
            (FailsAmong rest) := by
        intro existing records
        refine (ih hrest existing).map _ (fun _ _ h e he => ?_) fun _ _ _ _ => nofun
        cases he
        exact h e rfl
      rw [sync_tables_cons]
      refine Shows.bind ((sync_table_build_error hb htable _).and (hscope _)) (hothers _) ?_ ?_
      · rintro _ events ⟨hfails, -⟩ e ⟨⟩
        obtain ⟨hcolumn, hevents⟩ := hfails e rfl
        exact ⟨[], table, rest, rfl, hcolumn, fun event hevent record hrecord =>
          .inr (hevents event hevent record hrecord)⟩
      · rintro _ first _ second ⟨-, hfirst⟩ hsecond e he
        obtain ⟨before, other, after, rfl, ⟨column, hreports, hcolumn⟩, hevents⟩ := hsecond e he
        refine ⟨table :: before, other, after, rfl,
          ⟨column, hreports.mono (List.subset_append_right _ _), hcolumn⟩, ?_⟩
        refine List.forall_mem_append.mpr ⟨fun event hevent record hrecord => ?_,
          fun event hevent record hrecord => ?_⟩
        · exact .inl (hfirst event hevent record hrecord ▸ List.mem_cons_self)
        · exact (hevents event hevent record hrecord).imp_left (List.mem_cons_of_mem _)

/-- A run that succeeds, or fails for want of a name, has sent the statements of the changes that it
recorded as applied and nothing else. -/
def SendsWhole (failure : Option Failure) (events : List Event) : Prop :=
  (∀ e, failure = some e → ∃ e', e = .build e') → Event.commands events = carriedOut events

theorem sends_whole_cumulative : Cumulative SendsWhole := by
  constructor
  · intro failure events hrecords hcommands _
    rw [carriedOut, hrecords, hcommands]
    rfl
  · intro failure first second hfirst hsecond hfailure
    have hsucceeded : ∀ e : Failure, none = some e → ∃ e', e = .build e' := by
      rintro e ⟨⟩
    rw [Event.commands_append, hfirst hsucceeded, hsecond hfailure, carriedOut, carriedOut,
      carriedOut, Event.records_append, List.flatMap_append]

/-- A change is cut short by a failure of the engine only. -/
theorem apply_sends_whole (hb : b.BuildsNothing) (options : SyncOptions) (change : Change) :
    (apply b options change).Obeys SendsWhole := by
  refine ((apply_carried b options change).and (apply_buildable hb options change)).mono ?_
  rintro (e | record) events ⟨hcarried, hbuildable⟩ hfailure
  · obtain ⟨e', rfl⟩ := hfailure e rfl
    exact absurd rfl (hbuildable e')
  · obtain ⟨sent, hcommands, hnone, -⟩ := hcarried.sent
    cases hnone rfl
    rw [hcommands, List.map_nil, List.append_nil]

theorem skip_sends_whole (b : Backend σ) (reason : SkipReason) (change : Change) :
    (skip b reason change).Obeys SendsWhole := by
  refine (skip_notes b reason change).shows.mono ?_
  rintro _ _ ⟨rfl, rfl⟩ _
  rfl

end Synchronization

namespace Session

open Synchronization

/-- Where a build error of a synchronization comes from, whatever the engine answers: it was
reported a column that is neither declared nor reserved, and cleaning leaves nothing of the name of
this column or of its index. So there is none if all such columns have names. If there is one, then
every change that was begun before has been completed, and it is a change to a table that is
declared before, the creation of the table itself, or the drop of another of its columns. -/
theorem update_schema_build_error (b : Backend σ) (document : Json) (schema : Schema)
    (options : SyncOptions) (db : Handle σ) (hb : b.BuildsNothing)
    (hschema : Schema.ofJson document = .ok schema) :
    ((∀ table ∈ schema.tables, ∀ column e,
        Event.Reports table.name column ((updateSchema b schema options).trace db) →
        Undeclared table column → ¬ Unnameable column e) →
      ∀ e, ((updateSchema b schema options).run db).1 ≠ .error (.build e)) ∧
    ∀ e, ((updateSchema b schema options).run db).1 = .error (.build e) →
      Event.executedSql b.dialect ((updateSchema b schema options).trace db) =
        ((Event.records ((updateSchema b schema options).trace db)).filter
          ChangeRecord.isApplied).flatMap (ChangeRecord.sql b.dialect) ∧
      ∃ before table after, schema.tables = before ++ table :: after ∧
        (∃ column, Event.Reports table.name column ((updateSchema b schema options).trace db) ∧
          Undeclared table column ∧ Unnameable column e) ∧
        ∀ record ∈ Event.records ((updateSchema b schema options).trace db),
          record.change.table ∈ before.map Table.name ∨ ClearsTable table.name record.change := by
  have hfails : (updateSchema b schema options).Shows (FailsAmong schema.tables) := by
    unfold updateSchema
    refine Shows.bind ((Obeys.of_quiet (records_only_cumulative fun _ => False)
      (Quiet.tables b)).and (Buildable.tables hb)) (fun existing =>
        sync_tables_build_error hb (Schema.clean_of_of_json hschema) existing) ?_ ?_
    · rintro _ _ ⟨-, h⟩ e ⟨⟩
      exact absurd rfl (h e)
    · rintro _ first _ second ⟨hfirst, -⟩ hsecond e he
      obtain ⟨before, table, after, htables, ⟨column, hreports, hcolumn⟩, hevents⟩ := hsecond e he
      refine ⟨before, table, after, htables,
        ⟨column, hreports.mono (List.subset_append_right _ _), hcolumn⟩, ?_⟩
      exact List.forall_mem_append.mpr
        ⟨fun event hevent record hrecord => (hfirst event hevent record hrecord).elim, hevents⟩
  have hwhole : (updateSchema b schema options).Obeys SendsWhole :=
    update_schema_obeys sends_whole_cumulative fun change _ =>
      ⟨apply_sends_whole hb options change, fun _ => skip_sends_whole b _ change⟩
  refine ⟨fun hnamed e he => ?_, fun e he => ⟨?_, ?_⟩⟩
  · obtain ⟨before, table, after, htables, ⟨column, hreports, hundeclared, hblank⟩, -⟩ :=
      hfails db e he
    have htable : table ∈ schema.tables := by
      rw [htables]
      exact List.mem_append_right _ List.mem_cons_self
    exact hnamed table htable column e hreports hundeclared hblank
  · have hcarried := update_schema_carried b schema options db
    have hsent := hwhole db
    rw [he] at hsent
    rw [Event.executedSql, hsent (by rintro _ ⟨⟩; exact ⟨e, rfl⟩), hcarried.carried_out_sql]
    exact List.flatMap_congr fun record hrecord =>
      (hcarried.sql_eq (List.mem_of_mem_filter hrecord)).symm
  · obtain ⟨before, table, after, htables, hcolumn, hevents⟩ := hfails db e he
    refine ⟨before, table, after, htables, hcolumn, fun record hrecord => ?_⟩
    obtain ⟨event, hevent, hrecorded⟩ := List.mem_filterMap.mp hrecord
    cases event with
    | recorded r =>
        cases hrecorded
        exact hevents _ hevent record rfl
    | called | attempted | released => cases hrecorded

/-- A declaration of two tables. -/
def postsDocument : Json :=
  .object [("authors", .object [("name", .object [])]), ("posts", .object [("title", .object [])])]

def postsSchema : Schema :=
  ⟨[⟨"authors", [.ofType "name" "VARCHAR(128)" true none .none]⟩,
    ⟨"posts", [.ofType "title" "VARCHAR(128)" true none .none]⟩]⟩

/-- Only the second table exists, with a column of whose name cleaning leaves nothing. -/
def postsHandle : Handle Script :=
  .start (some ⟨"localhost", none, "", "", "app"⟩) []
    { fetches := [.ok [⟨[("name", some (.text "posts"))]⟩]]
      describes := [.ok [], .ok [⟨.ofType "!!" "INT" true none .none, none⟩]] }

/-- A run can be stopped by a name after it has created a table and given it a column. -/
theorem blank_name_after_statements :
    Schema.ofJson postsDocument = .ok postsSchema ∧
    (Script.backend .sqlite).BuildsNothing ∧
    ((updateSchema (Script.backend .sqlite) postsSchema ⟨false, false⟩).run postsHandle).1
      = .error (.build (.emptyIdentifier "!!")) ∧
    Event.commands ((updateSchema (Script.backend .sqlite) postsSchema ⟨false, false⟩).trace
      postsHandle) =
        [.ddl (.createTable "authors" []), .ddl (.addColumn "authors"
          (.ofType "name" "VARCHAR(128)" true none .none) none none)] := by
  refine ⟨rfl, Script.builds_nothing .sqlite, ?_, ?_⟩
  all_goals decide +kernel

/-- The statement above speaks of this run: it stops at the second table, and what it did before are
two whole changes to the first one. -/
theorem posts_build_error :
    ((updateSchema (Script.backend .sqlite) postsSchema ⟨false, false⟩).run postsHandle).1
      = .error (.build (.emptyIdentifier "!!")) ∧
    ∃ before table after, postsSchema.tables = before ++ table :: after ∧
      (∃ column, Event.Reports table.name column ((updateSchema (Script.backend .sqlite)
          postsSchema ⟨false, false⟩).trace postsHandle) ∧
        Undeclared table column ∧ Unnameable column (.emptyIdentifier "!!")) ∧
      ∀ record ∈ Event.records ((updateSchema (Script.backend .sqlite) postsSchema
          ⟨false, false⟩).trace postsHandle),
        record.change.table ∈ before.map Table.name ∨ ClearsTable table.name record.change := by
  have hrun : ((updateSchema (Script.backend .sqlite) postsSchema ⟨false, false⟩).run
      postsHandle).1 = .error (.build (.emptyIdentifier "!!")) := by
    decide +kernel
  exact ⟨hrun, ((update_schema_build_error (Script.backend .sqlite) postsDocument postsSchema
    ⟨false, false⟩ postsHandle (Script.builds_nothing .sqlite) rfl).2 _ hrun).2⟩

end Session

end SchemaKeeper

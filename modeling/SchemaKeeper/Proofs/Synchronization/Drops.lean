import SchemaKeeper.Engine.Script
import SchemaKeeper.Proofs.Synchronization.Scope

/-!
# Which columns are dropped

A synchronization drops the columns that the engine reports and that are neither declared nor
reserved. It tells them by their reported names but drops them under their cleaned ones, so that a
reported name that is no identifier can stand for another column. `Undeclared.MeansItself` says that
it does not, and under it `Session.update_schema_drops` keeps declared and reserved columns safe;
`Session.blank_name_drops` shows a run that loses both.
-/

namespace SchemaKeeper

namespace Event

/-- The event tells of a column that is dropped or would be, for want of force or in a dry run. -/
def Drops (table column : String) (event : Event) : Prop :=
  ∃ record index, event = .recorded record ∧ record.change = .dropColumn table column index

theorem IsQuiet.drops_none {event : Event} (h : event.IsQuiet) (table column : String) :
    ¬ event.Drops table column := by
  rintro ⟨record, _, hrecord, -⟩
  exact h.unrecorded record hrecord

/-- The column is in an answer of the engine that describes the table. -/
def Reports (table : String) (column : LiveColumn) (events : List Event) : Prop :=
  ∃ name columns, Identifier.sanitize table = .ok name ∧
    .called (.describe name) (.columns columns) ∈ events ∧ column ∈ columns

theorem Reports.mono {table : String} {column : LiveColumn} {events events' : List Event}
    (h : Reports table column events) (hevents : events ⊆ events') :
    Reports table column events' := by
  obtain ⟨name, columns, hname, hevent, hcolumn⟩ := h
  exact ⟨name, columns, hname, hevents hevent, hcolumn⟩

end Event

namespace Synchronization

open Session

variable {σ : Type} {b : Backend σ} {options : SyncOptions}

/-- A live column that no declaration governs: it is neither declared nor reserved. -/
structure Undeclared (table : Table) (column : LiveColumn) : Prop where
  undeclared : column.name ∉ table.columns.map Column.name
  unreserved : Identifier.isReserved column.name = false

/-- Under its cleaned name, too, the live column is neither declared nor reserved. -/
def Undeclared.MeansItself (table : Table) (column : LiveColumn) : Prop :=
  ∀ name, Identifier.sanitize column.name = .ok name →
    name ∉ table.columns.map Column.name ∧ Identifier.isReserved name = false

/-- A column whose reported name is an identifier is dropped under this name. -/
theorem Undeclared.means_itself {table : Table} {column : LiveColumn} (h : Undeclared table column)
    (hclean : Identifier.IsClean column.name) : MeansItself table column := by
  intro name hname
  rw [Identifier.sanitize_clean hclean] at hname
  cases hname
  exact ⟨h.undeclared, h.unreserved⟩

theorem describe_shows (b : Backend σ) (table : String) :
    (describe b table).Shows fun result events => ∀ columns, result = .ok columns →
      ∃ name, Identifier.sanitize table = .ok name ∧
        .called (.describe name) (.columns columns) ∈ events := by
  unfold describe
  refine Shows.built_bind (fun _ _ _ h => nomatch h) fun name hname => ?_
  exact (connected_call_shows b _ _ _ _).mono fun result events h columns hresult =>
    ⟨name, hname, h columns hresult⟩

/-- The columns that a synchronization starts from are reported, and no reserved one is among
them. -/
theorem live_columns_reported (b : Backend σ) (options : SyncOptions) (table : String)
    (present : Bool) :
    (liveColumns b options table present).Shows fun result events =>
      ∀ live, result = .ok live → ∀ column ∈ live,
        Event.Reports table column events ∧ Identifier.isReserved column.name = false := by
  unfold liveColumns
  split
  · refine Shows.pure ?_
    rintro _ ⟨⟩ _ hcolumn
    cases hcolumn
  · refine (describe_shows b table).map _ (fun _ _ _ _ h => nomatch h) ?_
    rintro columns events h _ ⟨⟩ column hcolumn
    obtain ⟨name, hname, hevent⟩ := h columns rfl
    obtain ⟨hmem, hunreserved⟩ := List.mem_filter.mp hcolumn
    exact ⟨⟨name, columns, hname, hevent, hmem⟩, by simpa using hunreserved⟩

/-- The events tell only of dropping these columns of the table, under their cleaned names. -/
def DropsAmong (table : String) (doomed : List LiveColumn) (event : Event) : Prop :=
  ∀ table' column, event.Drops table' column →
    table' = table ∧ ∃ c ∈ doomed, Identifier.sanitize c.name = .ok column

theorem drops_among_cumulative (table : String) (doomed : List LiveColumn) :
    Cumulative fun _ events => ∀ event ∈ events, DropsAmong table doomed event :=
  Cumulative.of_forall fun _ h table' column hdrops => absurd hdrops (h.drops_none table' column)

/-- Dropping columns tells of these columns. -/
theorem drop_all_among (b : Backend σ) (options : SyncOptions) (table : String)
    (doomed live : List LiveColumn) :
    (dropAll b options table doomed live).Obeys fun _ events =>
      ∀ event ∈ events, DropsAmong table doomed event := by
  refine drop_all_obeys (drops_among_cumulative table doomed) (fun c hc name index hname => ?_) live
  refine Admits.of_part_of fun outcome event _ hpart table' column => ?_
  rintro ⟨record, index', hrecord, hchange⟩
  rw [hpart.recorded record hrecord] at hchange
  cases hchange
  exact ⟨rfl, c, hc, hname⟩

/-- A change that drops no column tells of none. -/
theorem admits_drops_among {change : Change}
    (h : ∀ table column index, change ≠ .dropColumn table column index) (table : String)
    (doomed : List LiveColumn) :
    Admits b options (fun _ events => ∀ event ∈ events, DropsAmong table doomed event) change := by
  refine Admits.of_part_of fun outcome event _ hpart table' column => ?_
  rintro ⟨record, index, hrecord, hchange⟩
  rw [hpart.recorded record hrecord] at hchange
  exact absurd hchange (h table' column index)

/-- Each column that the events tell of dropping was reported for its table, is not declared there
and not reserved, and goes under its cleaned name. -/
def Grounded (tables : List Table) (events : List Event) : Prop :=
  ∀ event ∈ events, ∀ table column, event.Drops table column →
    ∃ t ∈ tables, t.name = table ∧ ∃ live, Event.Reports table live events ∧
      Undeclared t live ∧ Identifier.sanitize live.name = .ok column

theorem grounded_of_among_nil {tables : List Table} {table : String} {events : List Event}
    (h : ∀ event ∈ events, DropsAmong table [] event) : Grounded tables events := by
  intro event hevent table' column hdrops
  obtain ⟨-, c, hc, -⟩ := h event hevent table' column hdrops
  cases hc

/-- Columns that were reported before are grounds for dropping them. -/
theorem Grounded.append_among {tables : List Table} {table : Table} (htable : table ∈ tables)
    {doomed : List LiveColumn} {first second : List Event} (hfirst : Grounded tables first)
    (hdoomed : ∀ c ∈ doomed, Event.Reports table.name c first ∧ Undeclared table c)
    (hsecond : ∀ event ∈ second, DropsAmong table.name doomed event) :
    Grounded tables (first ++ second) := by
  intro event hevent table' column hdrops
  rcases List.mem_append.mp hevent with hevent | hevent
  · obtain ⟨t, ht, hname, live, hreports, hlive⟩ := hfirst event hevent table' column hdrops
    exact ⟨t, ht, hname, live, hreports.mono (List.subset_append_left _ _), hlive⟩
  · obtain ⟨rfl, c, hc, hname⟩ := hsecond event hevent table' column hdrops
    obtain ⟨hreports, hundeclared⟩ := hdoomed c hc
    exact ⟨table, htable, rfl, c, hreports.mono (List.subset_append_left _ _), hundeclared, hname⟩

theorem grounded_cumulative (tables : List Table) : Cumulative fun _ => Grounded tables := by
  constructor
  · intro failure events hrecords hcommands event hevent table column hdrops
    exact absurd hdrops ((Event.is_quiet_of_mem hrecords hcommands hevent).drops_none _ _)
  · intro failure first second hfirst hsecond event hevent table column hdrops
    rcases List.mem_append.mp hevent with hevent | hevent
    · obtain ⟨t, ht, hname, live, hreports, hlive⟩ := hfirst event hevent table column hdrops
      exact ⟨t, ht, hname, live, hreports.mono (List.subset_append_left _ _), hlive⟩
    · obtain ⟨t, ht, hname, live, hreports, hlive⟩ := hsecond event hevent table column hdrops
      exact ⟨t, ht, hname, live, hreports.mono (List.subset_append_right _ _), hlive⟩

/-- The columns that a table loses are reported ones that no declaration governs. -/
theorem sync_table_grounded (b : Backend σ) (options : SyncOptions) {tables : List Table}
    {table : Table} (htable : table ∈ tables) (present : Bool) :
    (syncTable b options table present).Obeys fun _ => Grounded tables := by
  have hinv := grounded_cumulative tables
  have hcreation : ∀ t column index,
      Change.createTable table.name ≠ .dropColumn t column index := fun _ _ _ h => nomatch h
  have hcreate : (ensureTable b options table.name present).Obeys fun _ => Grounded tables :=
    (ensure_table_obeys (drops_among_cumulative table.name [])
      (admits_drops_among hcreation _ _) present).mono fun _ _ => grounded_of_among_nil
  have hcolumns : ∀ doomed live, (syncColumns b options table.name "id" table.columns live).Obeys
      fun _ events => ∀ event ∈ events, DropsAmong table.name doomed event := by
    intro doomed live
    refine sync_columns_obeys (drops_among_cumulative _ _) ?_ "id" live
    rintro declared - change hchange
    refine admits_drops_among ?_ _ _
    rintro _ _ _ rfl
    exact hchange
  have hlive := (live_columns_reported b options table.name present).and
    (Obeys.of_quiet hinv (live_columns_quiet present))
  rw [sync_table_eq]
  refine hcreate.bind hinv fun created => Shows.bind hlive (fun live =>
    (drop_all_among b options table.name (stale table live) live).bind
      (drops_among_cumulative _ _) fun p => (hcolumns _ p.1).map (drops_among_cumulative _ _) _)
    (fun _ _ h => h.2) ?_
  rintro live first _ second ⟨hreported, hfirst⟩ hsecond
  refine hfirst.append_among htable (fun c hc => ?_) hsecond
  obtain ⟨hmem, hstale⟩ := List.mem_filter.mp hc
  obtain ⟨hreports, hunreserved⟩ := hreported live rfl c hmem
  exact ⟨hreports, by simpa using hstale, hunreserved⟩

theorem sync_tables_grounded (b : Backend σ) (options : SyncOptions) {all tables : List Table}
    (htables : tables ⊆ all) (existing : List String) :
    (syncTables b options tables existing).Obeys fun _ => Grounded all := by
  have hinv := grounded_cumulative all
  induction tables generalizing existing with
  | nil => exact .pure hinv _
  | cons table rest ih =>
      obtain ⟨htable, hrest⟩ := List.cons_subset.mp htables
      rw [sync_tables_cons]
      exact (sync_table_grounded b options htable _).bind hinv fun _ => (ih hrest _).map hinv _

end Synchronization

namespace Session

open Synchronization

variable {σ : Type}

theorem update_schema_grounded (b : Backend σ) (schema : Schema) (options : SyncOptions) :
    (updateSchema b schema options).Obeys fun _ => Grounded schema.tables := by
  have hinv := grounded_cumulative schema.tables
  unfold updateSchema
  exact (Obeys.of_quiet hinv (Quiet.tables b)).bind hinv fun existing =>
    sync_tables_grounded b options (List.Subset.refl _) existing

/-- What a synchronization drops was reported under a name that is neither declared nor reserved,
whatever the engine answers. The name under which it is dropped is neither declared nor reserved
either, as long as each reported column that is to go means itself under its cleaned name. -/
theorem update_schema_drops (b : Backend σ) (schema : Schema) (options : SyncOptions)
    (db : Handle σ) :
    (∀ log, ((updateSchema b schema options).run db).1 = .ok log →
      log = Event.records ((updateSchema b schema options).trace db)) ∧
    ∀ record ∈ Event.records ((updateSchema b schema options).trace db), ∀ name column index,
      record.change = .dropColumn name column index →
      ∃ table ∈ schema.tables, table.name = name ∧
        (∃ live, Event.Reports name live ((updateSchema b schema options).trace db) ∧
          Undeclared table live ∧ Identifier.sanitize live.name = .ok column) ∧
        ((∀ live, Event.Reports name live ((updateSchema b schema options).trace db) →
            Undeclared table live → Undeclared.MeansItself table live) →
          column ∉ table.columns.map Column.name ∧ Identifier.isReserved column = false) := by
  refine ⟨fun log => update_schema_log, fun record hrecord name column index hchange => ?_⟩
  obtain ⟨event, hevent, hrecorded⟩ := List.mem_filterMap.mp hrecord
  have hdrops : event.Drops name column := by
    cases event with
    | recorded r =>
        cases hrecorded
        exact ⟨record, index, rfl, hchange⟩
    | called | attempted | released => cases hrecorded
  obtain ⟨table, htable, hname, live, hreports, hundeclared, hcleaned⟩ :=
    update_schema_grounded b schema options db event hevent name column hdrops
  refine ⟨table, htable, hname, ⟨live, hreports, hundeclared, hcleaned⟩, fun hmeans => ?_⟩
  exact hmeans live hreports hundeclared column hcleaned

/-- A table with one declared column. -/
def namedDocument : Json := .object [("t", .object [("name", .object [])])]

def namedSchema : Schema := ⟨[⟨"t", [.ofType "name" "VARCHAR(128)" true none .none]⟩]⟩

/-- The columns of the table: the declared one and further ones of the given names. -/
def namedLive (others : List String) : List LiveColumn :=
  ("name" :: others).map fun name => ⟨.ofType name "VARCHAR(128)" true none .none, none⟩

def namedHandle (others : List String) : Handle Script :=
  .start (some ⟨"localhost", none, "", "", "app"⟩) []
    { fetches := [.ok [⟨[("name", some (.text "t"))]⟩]]
      describes := [.ok (namedLive others)] }

/-- The statement above speaks of runs in which a reported name needs cleaning: here no other column
has the name that is left of it. -/
theorem odd_name_drops :
    Event.records ((updateSchema (Script.backend .sqlite) namedSchema ⟨true, false⟩).trace
      (namedHandle ["odd-name;"])) = [.of .sqlite (.dropColumn "t" "oddname" none) .applied] ∧
    ∃ table ∈ namedSchema.tables, table.name = "t" ∧
      "oddname" ∉ table.columns.map Column.name ∧ Identifier.isReserved "oddname" = false := by
  have htrace : (updateSchema (Script.backend .sqlite) namedSchema ⟨true, false⟩).trace
      (namedHandle ["odd-name;"]) =
      [.called (.connect ⟨"localhost", none, "", "", "app"⟩) .done,
        .called (.fetch "LIST TABLES") (.rows [⟨[("name", some (.text "t"))]⟩]),
        .attempted "LIST TABLES" none,
        .called (.describe "t") (.columns (namedLive ["odd-name;"])),
        .attempted "LIST COLUMNS OF t" none,
        .called (.execute (.ddl (.dropColumn "t" "oddname"))) (.affected 0),
        .attempted "ALTER TABLE t DROP COLUMN oddname" none,
        .recorded (.of .sqlite (.dropColumn "t" "oddname" none) .applied)] := by
    decide +kernel
  have hrecords : Event.records ((updateSchema (Script.backend .sqlite) namedSchema
      ⟨true, false⟩).trace (namedHandle ["odd-name;"])) =
        [.of .sqlite (.dropColumn "t" "oddname" none) .applied] := by
    rw [htrace]
    rfl
  have hreported : ∀ live, Event.Reports "t" live ((updateSchema (Script.backend .sqlite)
      namedSchema ⟨true, false⟩).trace (namedHandle ["odd-name;"])) →
        live ∈ namedLive ["odd-name;"] := by
    rintro live ⟨name, columns, -, hevent, hcolumn⟩
    rw [htrace] at hevent
    obtain ⟨-, rfl⟩ : name = "t" ∧ columns = namedLive ["odd-name;"] := by simpa using hevent
    exact hcolumn
  obtain ⟨table, htable, hname, -, hsafe⟩ :=
    (update_schema_drops (Script.backend .sqlite) namedSchema ⟨true, false⟩
      (namedHandle ["odd-name;"])).2 _ (hrecords ▸ List.mem_singleton_self _) "t" "oddname" none rfl
  refine ⟨hrecords, table, htable, hname, hsafe fun live hlive hundeclared => ?_⟩
  cases List.mem_singleton.mp htable
  have hlive' := hreported live hlive
  simp only [namedLive, List.map_cons, List.map_nil, List.mem_cons, List.not_mem_nil, or_false]
    at hlive'
  rcases hlive' with rfl | rfl
  · exact absurd (by decide) hundeclared.undeclared
  · rintro name ⟨⟩
    decide

/-- Where cleaning a reported name leaves that of another column, this one is dropped, be it
declared or reserved. -/
theorem blank_name_drops :
    Schema.ofJson namedDocument = .ok namedSchema ∧
    Event.records ((updateSchema (Script.backend .mysql) namedSchema ⟨true, false⟩).trace
        (namedHandle ["na me", "i d"])) =
      [.of .mysql (.dropColumn "t" "name" none) .applied,
        .of .mysql (.dropColumn "t" "id" none) .applied] ∧
    (∀ table ∈ namedSchema.tables, table.name = "t" ∧ "name" ∈ table.columns.map Column.name) ∧
    Identifier.isReserved "id" = true := by
  refine ⟨rfl, ?_, ?_, ?_⟩
  all_goals decide +kernel

end Session

end SchemaKeeper

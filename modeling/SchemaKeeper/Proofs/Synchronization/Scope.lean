import SchemaKeeper.Proofs.Session.Conduct
import SchemaKeeper.Proofs.Synchronization.Account

/-!
# The scope of each part of a synchronization

Which changes a part of a synchronization can make: bringing a declared column about concerns this
column of this table, and bringing a table about concerns this table. A cumulative property of runs
that admits the changes within the scope of a part holds of the part, whatever the engine answers;
`update_schema_obeys` says so of the whole.
-/

namespace SchemaKeeper

/-- The change is one that bringing a column about can take: the column is added, or its definition
or index changed. -/
def Change.Concerns (table column : String) : Change → Prop
  | .addColumn t c _ | .modifyColumn t c _ => t = table ∧ c.name = column
  | .addIndex t c _ | .dropIndex t c _ => t = table ∧ c = column
  | .createTable _ | .dropColumn .. => False

/-- A change to a column is a change to its table. -/
theorem Change.Concerns.table_eq {table column : String} {change : Change}
    (h : change.Concerns table column) : change.table = table := by
  cases change with
  | addColumn | modifyColumn | addIndex | dropIndex => exact h.1
  | createTable | dropColumn => exact h.elim

namespace Event

/-- The event has to do with a change of the given outcome, if with any: it records the change, or
it sends one of its statements. -/
structure IsPartOf (d : Dialect) (change : Change) (outcome : Outcome) (event : Event) : Prop where
  recorded : ∀ record, event = .recorded record → record = .of d change outcome
  sent : ∀ s reply, event = .called (.execute (.ddl s)) reply →
    outcome = .applied ∧ s ∈ d.statements change

theorem IsQuiet.is_part_of {event : Event} (h : event.IsQuiet) (d : Dialect) (change : Change)
    (outcome : Outcome) : event.IsPartOf d change outcome :=
  ⟨fun record hrecord => absurd hrecord (h.unrecorded record),
    fun _ reply hsent => absurd hsent (h.unsent _ reply)⟩

end Event

namespace Synchronization

open Session

variable {σ : Type} {b : Backend σ} {options : SyncOptions}
  {inv : Option Failure → List Event → Prop} {table : String} {declared : Column}

/-- The property of runs holds of a change however it is dealt with: the way the options say or, if
the change can lose nothing, by holding it back. -/
structure Admits (b : Backend σ) (options : SyncOptions)
    (inv : Option Failure → List Event → Prop) (change : Change) : Prop where
  apply : (apply b options change).Obeys inv
  skip : change.isDestructive = false → (skip b .pendingIndexDrop change).Obeys inv

/-- What is executed of a change are the statements that carry it out, if it is applied at all. -/
theorem executed_of (d : Dialect) (change : Change) (outcome : Outcome) :
    (ChangeRecord.of d change outcome).executed =
      if outcome = .applied then d.statements change else [] := by
  cases outcome <;> rfl

theorem part_of_cumulative (d : Dialect) (change : Change) (outcome : Outcome) :
    Cumulative fun _ events => ∀ event ∈ events, event.IsPartOf d change outcome :=
  Cumulative.of_forall fun _ h => h.is_part_of d change outcome

theorem execute_part_of {change : Change} {s : Ddl} (hs : s ∈ b.dialect.statements change) :
    (execute b (.ddl s)).Obeys fun _ events =>
      ∀ event ∈ events, event.IsPartOf b.dialect change .applied := by
  have hcalled : ∀ reply, (Event.called (.execute (.ddl s)) reply).IsPartOf b.dialect change
      .applied := by
    intro reply
    refine ⟨fun record h => (nomatch h), fun other reply' h => ?_⟩
    cases h
    exact ⟨rfl, hs⟩
  have hattempted : ∀ sql failure, (Event.attempted sql failure).IsPartOf b.dialect change
      .applied := by
    intro sql failure
    have hquiet : (Event.attempted sql failure).IsQuiet :=
      ⟨fun _ h => (nomatch h), fun _ _ h => (nomatch h)⟩
    exact hquiet.is_part_of _ _ _
  have hquiet : ∀ events, Event.records events = [] → Event.commands events = [] →
      ∀ event ∈ events, event.IsPartOf b.dialect change .applied :=
    fun _ hrecords hcommands _ hevent =>
      (Event.is_quiet_of_mem hrecords hcommands hevent).is_part_of _ _ _
  refine (execute_shows b (.ddl s)).mono fun result events h => ?_
  cases h with
  | done before _ hrecords hcommands | failed before _ hrecords hcommands =>
      rw [List.forall_mem_append]
      refine ⟨hquiet before hrecords hcommands, ?_⟩
      simp only [List.forall_mem_cons, List.not_mem_nil, false_imp_iff, implies_true, and_true]
      exact ⟨hcalled _, hattempted _ _⟩
  | unsent _ _ hrecords hcommands => exact hquiet events hrecords hcommands

theorem note_part_of (change : Change) (outcome : Outcome) :
    (note (.of d change outcome) >>= fun _ => pure (.of d change outcome) :
      Session σ ChangeRecord).Obeys fun _ events =>
        ∀ event ∈ events, event.IsPartOf d change outcome := by
  intro db event hevent
  rw [note_events] at hevent
  cases List.mem_singleton.mp hevent
  refine ⟨fun record h => ?_, fun _ _ h => (nomatch h)⟩
  cases h
  rfl

theorem execute_all_part_of {change : Change} {outcome : Outcome} {statements : List Ddl}
    (h : ∀ s ∈ statements, outcome = .applied ∧ s ∈ b.dialect.statements change) :
    (executeAll b statements).Obeys fun _ events =>
      ∀ event ∈ events, event.IsPartOf b.dialect change outcome := by
  have hinv := part_of_cumulative b.dialect change outcome
  induction statements with
  | nil => exact .pure hinv ()
  | cons s rest ih =>
      obtain ⟨⟨rfl, hs⟩, hrest⟩ := List.forall_mem_cons.mp h
      exact (execute_part_of hs).bind hinv fun _ => ih hrest

/-- Carrying a change out, planning it or skipping it has to do with this change only. -/
theorem apply_part_of (b : Backend σ) (options : SyncOptions) (change : Change) :
    (apply b options change).Obeys fun _ events =>
      ∀ event ∈ events, event.IsPartOf b.dialect change (outcomeOf options change) := by
  unfold apply
  refine (execute_all_part_of fun s hs => ?_).bind (part_of_cumulative _ _ _) fun _ =>
    note_part_of change _
  rw [executed_of] at hs
  split at hs
  · next happlied => exact ⟨happlied, hs⟩
  · cases hs

/-- A property of single events admits a change if what has to do with the change has it. -/
theorem Admits.of_part_of {p : Event → Prop} {change : Change}
    (h : ∀ outcome event,
      outcome = outcomeOf options change ∨ outcome = .skipped .pendingIndexDrop →
      event.IsPartOf b.dialect change outcome → p event) :
    Admits b options (fun _ events => ∀ event ∈ events, p event) change := by
  constructor
  · exact (apply_part_of b options change).mono fun _ _ hpart event hevent =>
      h _ event (.inl rfl) (hpart event hevent)
  · intro _
    exact (note_part_of change _).mono fun _ _ hpart event hevent =>
      h _ event (.inr rfl) (hpart event hevent)

/-- The event records no change but one of this kind. -/
def RecordsOnly (p : Change → Prop) (event : Event) : Prop :=
  ∀ record, event = .recorded record → p record.change

theorem records_only_cumulative (p : Change → Prop) :
    Cumulative fun _ events => ∀ event ∈ events, RecordsOnly p event :=
  Cumulative.of_forall fun _ h record hrecord => absurd hrecord (h.unrecorded record)

theorem admits_records_only {p : Change → Prop} {change : Change} (h : p change) :
    Admits b options (fun _ events => ∀ event ∈ events, RecordsOnly p event) change := by
  refine Admits.of_part_of fun outcome event _ hpart record hrecord => ?_
  rw [hpart.recorded record hrecord]
  exact h

/-- A column is dropped under its cleaned name, and so is its index. -/
theorem drop_of_eq {column : LiveColumn} {change : Change} (h : dropOf table column = .ok change) :
    ∃ name index, Identifier.sanitize column.name = .ok name ∧
      (∀ n ∈ index, ∃ raw, column.indexName = some raw ∧ Identifier.sanitize raw = .ok n) ∧
      change = .dropColumn table name index := by
  unfold dropOf at h
  cases hname : Identifier.sanitize column.name with
  | error e =>
      rw [hname] at h
      cases h
  | ok name =>
      rw [hname] at h
      cases hindex : column.indexName with
      | none =>
          rw [hindex] at h
          cases h
          exact ⟨name, none, rfl, nofun, rfl⟩
      | some raw =>
          rw [hindex] at h
          change Identifier.sanitize raw >>= _ = _ at h
          cases hclean : Identifier.sanitize raw with
          | error e =>
              rw [hclean] at h
              cases h
          | ok clean =>
              rw [hclean] at h
              cases h
              refine ⟨name, some clean, rfl, ?_, rfl⟩
              rintro _ ⟨⟩
              exact ⟨raw, rfl, hclean⟩

theorem drop_all_obeys (hinv : Cumulative inv) {doomed : List LiveColumn}
    (h : ∀ column ∈ doomed, ∀ name index, Identifier.sanitize column.name = .ok name →
      Admits b options inv (.dropColumn table name index)) (live : List LiveColumn) :
    (dropAll b options table doomed live).Obeys inv := by
  induction doomed generalizing live with
  | nil => exact .pure hinv _
  | cons column rest ih =>
      obtain ⟨hcolumn, hrest⟩ := List.forall_mem_cons.mp h
      rw [drop_all_cons]
      refine .built_bind hinv fun change hchange => ?_
      obtain ⟨name, index, hname, -, rfl⟩ := drop_of_eq hchange
      refine (hcolumn name index hname).apply.bind hinv fun record => ?_
      exact (ih hrest _).map hinv _

section Column

variable (hinv : Cumulative inv)
  (h : ∀ change, change.Concerns table declared.name → Admits b options inv change)

include hinv h

theorem redefine_obeys (current : LiveColumn) (live : List LiveColumn) :
    (redefine b options table declared current live).Obeys inv := by
  unfold redefine
  split
  · unfold modify
    refine (h _ ?_).apply.bind hinv fun record => ?_
    · exact ⟨rfl, rfl⟩
    split
    · exact .pure hinv _
    · split
      · exact .pure hinv _
      · exact (Obeys.of_quiet hinv (Quiet.user_columns b table)).map hinv _
  · exact .pure hinv _

theorem add_index_obeys (kept : Bool) (live : List LiveColumn) :
    (addIndex b options table declared kept live).Obeys inv := by
  unfold addIndex
  split
  · exact .pure hinv _
  · split
    · refine Obeys.map hinv ((h _ ?_).skip rfl) _
      exact ⟨rfl, rfl⟩
    · refine Obeys.map hinv (h _ ?_).apply _
      exact ⟨rfl, rfl⟩

theorem sync_index_obeys (live : List LiveColumn) :
    (syncIndex b options table declared live).Obeys inv := by
  cases hfind : live.find? fun c => c.name = declared.name with
  | none =>
      unfold syncIndex
      rw [hfind]
      exact .pure hinv _
  | some current =>
      rw [sync_index_some hfind]
      split
      · exact .pure hinv _
      · split
        · refine (h _ ?_).apply.bind hinv fun record => ?_
          · exact ⟨rfl, rfl⟩
          exact (add_index_obeys hinv h _ _).map hinv _
        · exact add_index_obeys hinv h false live

/-- Bringing a column about concerns this column only. -/
theorem sync_column_obeys (after : String) (live : List LiveColumn) :
    (syncColumn b options table after declared live).Obeys inv := by
  cases hfind : live.find? fun c => c.name = declared.name with
  | none =>
      rw [sync_column_none hfind]
      refine Obeys.map hinv (h _ ?_).apply _
      exact ⟨rfl, rfl⟩
  | some current =>
      rw [sync_column_some hfind]
      refine (redefine_obeys hinv h current live).bind hinv fun p => ?_
      exact (sync_index_obeys hinv h p.1).map hinv _

end Column

theorem sync_columns_obeys (hinv : Cumulative inv) {columns : List Column}
    (h : ∀ declared ∈ columns, ∀ change : Change, change.Concerns table declared.name →
      Admits b options inv change) (after : String) (live : List LiveColumn) :
    (syncColumns b options table after columns live).Obeys inv := by
  induction columns generalizing after live with
  | nil => exact .pure hinv _
  | cons declared rest ih =>
      obtain ⟨hdeclared, hrest⟩ := List.forall_mem_cons.mp h
      rw [sync_columns_cons]
      split
      · exact ih hrest after live
      · refine (sync_column_obeys hinv hdeclared after live).bind hinv fun p => ?_
        exact (ih hrest _ _).map hinv _

theorem live_columns_quiet (present : Bool) : (liveColumns b options table present).Quiet := by
  unfold liveColumns
  split
  · exact Quiet.pure []
  · exact Quiet.user_columns b table

theorem ensure_table_obeys (hinv : Cumulative inv)
    (h : Admits b options inv (.createTable table)) (present : Bool) :
    (ensureTable b options table present).Obeys inv := by
  unfold ensureTable
  split
  · exact .pure hinv _
  · exact h.apply.map hinv _

/-- Bringing a table about concerns this table only. -/
theorem sync_table_obeys (hinv : Cumulative inv) {table : Table}
    (h : ∀ change : Change, change.table = table.name → Admits b options inv change)
    (present : Bool) : (syncTable b options table present).Obeys inv := by
  rw [sync_table_eq]
  refine (ensure_table_obeys hinv (h _ rfl) present).bind hinv fun created => ?_
  refine (Obeys.of_quiet hinv (live_columns_quiet present)).bind hinv fun live => ?_
  refine (drop_all_obeys hinv (fun _ _ _ _ _ => h _ rfl) live).bind hinv fun p => ?_
  refine (sync_columns_obeys hinv ?_ "id" p.1).map hinv _
  exact fun _ _ change hchange => h change hchange.table_eq

theorem sync_tables_obeys (hinv : Cumulative inv) {tables : List Table}
    (h : ∀ change : Change, change.table ∈ tables.map Table.name → Admits b options inv change)
    (existing : List String) : (syncTables b options tables existing).Obeys inv := by
  induction tables generalizing existing with
  | nil => exact .pure hinv _
  | cons table rest ih =>
      rw [List.map_cons] at h
      rw [sync_tables_cons]
      refine (sync_table_obeys hinv ?_ _).bind hinv fun records => (ih ?_ _).map hinv _
      · exact fun change hchange => h change (List.mem_cons.mpr (.inl hchange))
      · exact fun change hchange => h change (List.mem_cons_of_mem _ hchange)

end Synchronization

/-- A synchronization makes changes to declared tables only. -/
theorem Session.update_schema_obeys {σ : Type} {b : Backend σ} {options : SyncOptions}
    {inv : Option Failure → List Event → Prop} (hinv : Cumulative inv) {schema : Schema}
    (h : ∀ change : Change, change.table ∈ schema.tables.map Table.name →
      Synchronization.Admits b options inv change) :
    (updateSchema b schema options).Obeys inv := by
  unfold updateSchema
  refine (Obeys.of_quiet hinv (Quiet.tables b)).bind hinv fun existing => ?_
  exact Synchronization.sync_tables_obeys hinv h existing

end SchemaKeeper

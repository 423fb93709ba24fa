import Mathlib.Data.List.Basic
import SchemaKeeper.Engine.Script
import SchemaKeeper.Proofs.Synchronization.Notices

/-!
# The statements of a synchronization

What a synchronization sends to the engine is what its log says. `Carried` describes the events of a
run under any answers: each record belongs to its change, the statements that were sent are those of
the applied changes and, in a run that failed, some first statements of one more change, and a
statement that fails is the last thing that is sent. `Session.update_schema_statements` is the whole
of it.
-/

namespace SchemaKeeper

/-- The texts of the statements that carry a change out. -/
def Dialect.changeSql (d : Dialect) (change : Change) : List String :=
  (d.statements change).map (Ddl.text d)

/-- The texts of the statements that some events sent to be executed. -/
def Event.executedSql (d : Dialect) (events : List Event) : List String :=
  (Event.commands events).map (Command.sql d)

namespace Synchronization

open Session

variable {σ : Type} {b : Backend σ} {d : Dialect} {options : SyncOptions}

/-- A command that fails ends the run with its failure: it is the last one to be sent, and all that
follows is that the attempt is over. -/
def Aborts (d : Dialect) (failure : Option Failure) (events : List Event) : Prop :=
  ∀ command e, .called (.execute command) (.failed e) ∈ events → failure = some e ∧ ∃ before,
    events = before ++ [.called (.execute command) (.failed e), .attempted (command.sql d) (some e)]

theorem aborts_cumulative (d : Dialect) : Cumulative (Aborts d) := by
  constructor
  · intro failure events _ hcommands command e hfailed
    exact absurd hfailed (Event.not_sent_of_commands_nil hcommands)
  · intro failure first second hfirst hsecond command e hfailed
    rcases List.mem_append.mp hfailed with hfailed | hfailed
    -- The first part did not fail.
    · cases (hfirst command e hfailed).1
    · obtain ⟨hfailure, before, rfl⟩ := hsecond command e hfailed
      exact ⟨hfailure, first ++ before, (List.append_assoc _ _ _).symm⟩

theorem execute_aborts (b : Backend σ) (command : Command) :
    (execute b command).Obeys (Aborts b.dialect) := by
  refine (execute_shows b command).mono fun result events h => ?_
  intro other e hfailed
  cases h with
  | done before count _ hcommands =>
      rw [List.mem_append] at hfailed
      rcases hfailed with hfailed | hfailed
      · exact absurd hfailed (Event.not_sent_of_commands_nil hcommands)
      · simp at hfailed
  | failed before e' _ hcommands =>
      rw [List.mem_append] at hfailed
      rcases hfailed with hfailed | hfailed
      · exact absurd hfailed (Event.not_sent_of_commands_nil hcommands)
      · obtain ⟨rfl, rfl⟩ : other = command ∧ e = e' := by simpa using hfailed
        exact ⟨rfl, before, rfl⟩
  | unsent _ _ _ hcommands => exact absurd hfailed (Event.not_sent_of_commands_nil hcommands)

/-- How executing statements one after another goes: nothing is recorded, and what is sent are all
of them or, if the run fails, some first ones. -/
structure Sent (d : Dialect) (statements : List Ddl) (failure : Option Failure)
    (events : List Event) : Prop where
  unrecorded : Event.records events = []
  sent : ∃ sent, sent <+: statements ∧ Event.commands events = sent.map .ddl ∧
    (failure = none → sent = statements)
  aborts : Aborts d failure events

theorem execute_all_sent (b : Backend σ) (statements : List Ddl) :
    (executeAll b statements).Obeys (Sent b.dialect statements) := by
  induction statements with
  | nil => exact Shows.pure ⟨rfl, ⟨[], List.nil_prefix, rfl, fun _ => rfl⟩,
      (aborts_cumulative _).quiet rfl rfl⟩
  | cons s rest ih =>
      have hfirst := (execute_shows b (.ddl s)).and (execute_aborts b (.ddl s))
      refine hfirst.bind (fun _ => ih) ?_ ?_
      · rintro e events ⟨hexecution, haborts⟩
        cases hexecution with
        | failed before _ hrecords hcommands =>
            refine ⟨?_, ⟨[s], ⟨rest, rfl⟩, ?_, fun h => nomatch h⟩, haborts⟩
            · rw [Event.records_append, hrecords]
              rfl
            · rw [Event.commands_append, hcommands]
              rfl
        | unsent _ _ hrecords hcommands =>
            exact ⟨hrecords, ⟨[], List.nil_prefix, hcommands, fun h => nomatch h⟩, haborts⟩
      · rintro count first result second ⟨hexecution, haborts⟩ hrest
        obtain ⟨sent, hprefix, hsent, hall⟩ := hrest.sent
        have haborts' := (aborts_cumulative b.dialect).append haborts hrest.aborts
        cases hexecution with
        | done before _ hrecords hcommands =>
            refine ⟨?_, ⟨s :: sent, List.prefix_cons_inj s |>.mpr hprefix, ?_, ?_⟩, haborts'⟩
            · rw [Event.records_append, Event.records_append, hrecords, hrest.unrecorded]
              rfl
            · rw [Event.commands_append, Event.commands_append, hcommands, hsent]
              rfl
            · exact fun h => by rw [hall h]

/-- The record belongs to its change: it holds the statements of the change, and its outcome is the
one that the options give or, for a change that can lose nothing, that it is held back. -/
def Warranted (d : Dialect) (options : SyncOptions) (record : ChangeRecord) : Prop :=
  record = .of d record.change (outcomeOf options record.change) ∨
    record.change.isDestructive = false ∧ record = .of d record.change (.skipped .pendingIndexDrop)

/-- The statements that the records say were executed. -/
def carriedOut (events : List Event) : List Command :=
  (Event.records events).flatMap fun r => r.executed.map .ddl

/-- What the events of a run of changes are like, given the failure that it ended with. -/
structure Carried (d : Dialect) (options : SyncOptions) (failure : Option Failure)
    (events : List Event) : Prop where
  aborts : Aborts d failure events
  warranted : ∀ record ∈ Event.records events, Warranted d options record
  /-- Beyond the statements of the records, a run that failed may have sent some first statements of
  a change that it did not get to record; a statement that failed is among them. -/
  sent : ∃ sent : List Ddl, Event.commands events = carriedOut events ++ sent.map .ddl ∧
    (failure = none → sent = []) ∧
    (sent = [] → ∀ command e, .called (.execute command) (.failed e) ∉ events) ∧
    (sent = [] ∨ ∃ change, outcomeOf options change = .applied ∧ sent <+: d.statements change)

theorem carried_cumulative (d : Dialect) (options : SyncOptions) :
    Cumulative (Carried d options) := by
  constructor
  · intro failure events hrecords hcommands
    refine ⟨(aborts_cumulative d).quiet hrecords hcommands, ?_, [], ?_, fun _ => rfl,
      fun _ command e => Event.not_sent_of_commands_nil hcommands, .inl rfl⟩
    · rw [hrecords]
      exact List.forall_mem_nil _
    · rw [carriedOut, hrecords, hcommands]
      rfl
  · intro failure first second hfirst hsecond
    obtain ⟨sent, hcommands, hnone, hunfailed, -⟩ := hfirst.sent
    obtain ⟨sent', hcommands', hnone', hunfailed', hchange⟩ := hsecond.sent
    cases hnone rfl
    refine ⟨(aborts_cumulative d).append hfirst.aborts hsecond.aborts, ?_, sent', ?_, hnone', ?_,
      hchange⟩
    · rw [Event.records_append]
      exact fun record hrecord => (List.mem_append.mp hrecord).elim (hfirst.warranted record)
        (hsecond.warranted record)
    · rw [Event.commands_append, hcommands, hcommands', carriedOut, carriedOut, carriedOut,
        Event.records_append, List.flatMap_append, List.map_nil, List.append_nil, List.append_assoc]
    · exact fun h command e hfailed => (List.mem_append.mp hfailed).elim
        (hunfailed rfl command e) (hunfailed' h command e)

/-- The statements of a change that is carried out are sent before its record is made. -/
theorem apply_carried (b : Backend σ) (options : SyncOptions) (change : Change) :
    (apply b options change).Obeys (Carried b.dialect options) := by
  unfold apply
  refine Shows.bind (execute_all_sent b _) (fun _ => (note_notes _).shows) ?_ ?_
  · -- The run failed before the record was made.
    intro e events h
    obtain ⟨sent, hprefix, hsent, -⟩ := h.sent
    rw [executed_of] at hprefix
    refine ⟨h.aborts, ?_, sent, ?_, (fun h => nomatch h), ?_, ?_⟩
    · rw [h.unrecorded]
      exact List.forall_mem_nil _
    · rw [carriedOut, h.unrecorded]
      exact hsent
    · rintro rfl command e'
      exact Event.not_sent_of_commands_nil hsent
    · split at hprefix
      · next happlied => exact .inr ⟨change, happlied, hprefix⟩
      · exact .inl (List.prefix_nil.mp hprefix)
  · rintro ⟨⟩ first result second h ⟨rfl, rfl⟩
    obtain ⟨sent, -, hsent, hall⟩ := h.sent
    cases hall rfl
    refine ⟨?_, ?_, [], ?_, fun _ => rfl, fun _ command e hfailed => ?_, .inl rfl⟩
    · intro command e hfailed
      rcases List.mem_append.mp hfailed with hfailed | hfailed
      · cases (h.aborts command e hfailed).1
      · simp at hfailed
    · rw [Event.records_append, h.unrecorded]
      rintro record hrecord
      cases List.mem_singleton.mp hrecord
      exact .inl rfl
    · rw [Event.commands_append, carriedOut, Event.records_append, h.unrecorded, hsent]
      simp [Event.commands, Event.records]
    · rcases List.mem_append.mp hfailed with hfailed | hfailed
      · cases (h.aborts command e hfailed).1
      · simp at hfailed

/-- A change that is held back is recorded, and nothing is sent for it. -/
theorem skip_carried (b : Backend σ) (options : SyncOptions) {change : Change}
    (hchange : change.isDestructive = false) :
    (skip b .pendingIndexDrop change).Obeys (Carried b.dialect options) := by
  refine (skip_notes b _ change).shows.mono ?_
  rintro _ _ ⟨rfl, rfl⟩
  refine ⟨?_, ?_, [], rfl, fun _ => rfl, ?_, .inl rfl⟩
  · exact fun command e hfailed => absurd hfailed (Event.not_sent_of_commands_nil rfl)
  · exact fun record hrecord => List.mem_singleton.mp hrecord ▸ .inr ⟨hchange, rfl⟩
  · exact fun _ command e => Event.not_sent_of_commands_nil rfl

/-- Only runs that are not dry carry anything out. -/
theorem outcome_of_dry (hdry : options.dryRun = true) (change : Change) :
    outcomeOf options change ≠ .applied := by
  unfold outcomeOf
  rw [hdry]
  split <;> simp

namespace Carried

variable {failure : Option Failure} {events : List Event}

/-- The record of a change that was applied holds the statements that carry it out. -/
theorem sql_eq (h : Carried d options failure events) {record : ChangeRecord}
    (hrecord : record ∈ Event.records events) : record.sql d = d.changeSql record.change := by
  rcases h.warranted record hrecord with heq | ⟨-, heq⟩
  all_goals
    rw [heq]
    rfl

/-- What was sent for the records are the statements of the applied changes among them. -/
theorem carried_out_sql (h : Carried d options failure events) :
    (carriedOut events).map (Command.sql d) =
      ((Event.records events).filter ChangeRecord.isApplied).flatMap
        fun r => d.changeSql r.change := by
  have hsql : ∀ record ∈ Event.records events, record.sql d = d.changeSql record.change :=
    fun _ hrecord => h.sql_eq hrecord
  unfold carriedOut
  generalize Event.records events = records at hsql ⊢
  induction records with
  | nil => rfl
  | cons record rest ih =>
      obtain ⟨hrecord, hrest⟩ := List.forall_mem_cons.mp hsql
      rw [List.flatMap_cons, List.map_append, ih hrest, ChangeRecord.executed]
      cases happlied : record.isApplied with
      | false => rw [List.filter_cons_of_neg (by simp [happlied])]; rfl
      | true =>
          rw [List.filter_cons_of_pos happlied, List.flatMap_cons, ← hrecord, if_pos rfl,
            List.map_map]
          rfl

/-- A dry run sends nothing and applies nothing. -/
theorem of_dry (h : Carried d options failure events) (hdry : options.dryRun = true) :
    Event.commands events = [] ∧ ∀ record ∈ Event.records events, record.isApplied = false := by
  have hrecords : ∀ record ∈ Event.records events, record.isApplied = false := by
    intro record hrecord
    rcases h.warranted record hrecord with heq | ⟨-, heq⟩
    · rw [heq]
      exact decide_eq_false (outcome_of_dry hdry _)
    · rw [heq]
      rfl
  obtain ⟨sent, hcommands, -, -, hsent⟩ := h.sent
  rcases hsent with rfl | ⟨change, hchange, -⟩
  · refine ⟨?_, hrecords⟩
    rw [hcommands, List.map_nil, List.append_nil]
    refine List.flatMap_eq_nil_iff.mpr fun record hrecord => ?_
    rw [ChangeRecord.executed, hrecords record hrecord]
    rfl
  · exact absurd hchange (outcome_of_dry hdry change)

/-- A statement that fails is the last one that is sent, after all statements of the changes that
were applied and some first ones of its own change. -/
theorem of_failed (h : Carried d options failure events) {command : Command} {e : Failure}
    (hfailed : .called (.execute command) (.failed e) ∈ events) :
    ∃ change sent before, outcomeOf options change = .applied ∧
      sent ++ [command.sql d] <+: d.changeSql change ∧
      Event.executedSql d events =
        (((Event.records events).filter ChangeRecord.isApplied).flatMap
          fun r => d.changeSql r.change) ++ (sent ++ [command.sql d]) ∧
      events = before ++
        [.called (.execute command) (.failed e), .attempted (command.sql d) (some e)] := by
  obtain ⟨sent, hcommands, -, hunfailed, hsent⟩ := h.sent
  obtain ⟨-, before, hevents⟩ := h.aborts command e hfailed
  rcases hsent with rfl | ⟨change, hchange, hprefix⟩
  · exact absurd hfailed (hunfailed rfl command e)
  · have hne : sent ≠ [] := fun hnil => hunfailed hnil command e hfailed
    obtain ⟨first, last, rfl⟩ := (List.eq_nil_or_concat' sent).resolve_left hne
    -- The command that failed is the last one of the run.
    have hlast : Event.commands before ++ [command] =
        (carriedOut events ++ first.map .ddl) ++ [.ddl last] := by
      rw [List.append_assoc, ← List.map_singleton (f := Command.ddl), ← List.map_append,
        ← hcommands, hevents, Event.commands_append]
      rfl
    obtain ⟨-, hcommand⟩ := List.append_inj' hlast rfl
    cases hcommand
    refine ⟨change, first.map (Ddl.text d), before, hchange, ?_, ?_, hevents⟩
    · have htexts := hprefix.map (Ddl.text d)
      rwa [List.map_append] at htexts
    · rw [Event.executedSql, hcommands, List.map_append, h.carried_out_sql, List.map_map,
        List.map_append]
      rfl

end Carried

end Synchronization

namespace Session

open Synchronization

variable {σ : Type}

theorem update_schema_carried (b : Backend σ) (schema : Schema) (options : SyncOptions) :
    (updateSchema b schema options).Obeys (Carried b.dialect options) :=
  update_schema_obeys (carried_cumulative b.dialect options) fun change _ =>
    ⟨apply_carried b options change, skip_carried b options⟩

/-- The log of a synchronization and the statements that reached the engine agree, whatever the
engine answers. A run that succeeds sends the statements of the applied changes in its log, in
order, and nothing else, and each record of the log holds the statements of its change. A dry run
sends nothing and applies nothing. A run in which a statement fails ends with its failure: it sends
the statements of the changes that it applied and then the first ones of one more change, of which
the one that failed is the last, and no call follows. -/
theorem update_schema_statements (b : Backend σ) (schema : Schema) (options : SyncOptions)
    (db : Handle σ) :
    (∀ log, ((updateSchema b schema options).run db).1 = .ok log →
      log = Event.records ((updateSchema b schema options).trace db) ∧
      Event.executedSql b.dialect ((updateSchema b schema options).trace db) =
        (log.filter ChangeRecord.isApplied).flatMap (ChangeRecord.sql b.dialect) ∧
      ∀ record ∈ log, record.sql b.dialect = b.dialect.changeSql record.change) ∧
    (options.dryRun = true →
      Event.commands ((updateSchema b schema options).trace db) = [] ∧
      ∀ record ∈ Event.records ((updateSchema b schema options).trace db),
        record.isApplied = false) ∧
    ∀ command e,
      .called (.execute command) (.failed e) ∈ (updateSchema b schema options).trace db →
      ((updateSchema b schema options).run db).1 = .error e ∧
      ∃ change sent before, outcomeOf options change = .applied ∧
        sent ++ [command.sql b.dialect] <+: b.dialect.changeSql change ∧
        Event.executedSql b.dialect ((updateSchema b schema options).trace db) =
          (((Event.records ((updateSchema b schema options).trace db)).filter
            ChangeRecord.isApplied).flatMap fun r => b.dialect.changeSql r.change) ++
          (sent ++ [command.sql b.dialect]) ∧
        (updateSchema b schema options).trace db = before ++
          [.called (.execute command) (.failed e),
            .attempted (command.sql b.dialect) (some e)] := by
  have hcarried := update_schema_carried b schema options db
  refine ⟨fun log hrun => ?_, hcarried.of_dry, fun command e hfailed => ⟨?_, ?_⟩⟩
  · cases update_schema_log hrun
    refine ⟨rfl, ?_, fun record hrecord => hcarried.sql_eq hrecord⟩
    obtain ⟨sent, hcommands, hnone, -⟩ := hcarried.sent
    cases hnone (by rw [hrun]; rfl)
    rw [Event.executedSql, hcommands, List.map_nil, List.append_nil, hcarried.carried_out_sql]
    exact List.flatMap_congr fun record hrecord =>
      (hcarried.sql_eq (List.mem_of_mem_filter hrecord)).symm
  · have hfailure := (hcarried.aborts command e hfailed).1
    rcases hrun : ((updateSchema b schema options).run db).1 with e' | log
    · rw [hrun] at hfailure
      cases hfailure
      rfl
    · rw [hrun] at hfailure
      cases hfailure
  · exact hcarried.of_failed hfailed

/-- A table with a column of another type than declared. It can be given another column, but its
rows cannot be copied. -/
def fullDiskHandle : Handle Script :=
  .start (some ⟨"localhost", none, "", "", "app"⟩) []
    { fetches := [.ok [⟨[("name", some (.text "t"))]⟩]]
      describes := [.ok [⟨.ofType "a" "TEXT" true none .none, none⟩]]
      executes := [.ok 0, .ok 0, .error (.statement "disk full" (.database none "disk full"))] }

/-- A column that the table lacks. -/
def fullDiskAdded : Column := .ofType "b" "TEXT" true none .none

/-- The other column is declared as a number, so that the table is rebuilt. -/
def fullDiskSchema : Schema := ⟨[⟨"t", [fullDiskAdded, .ofType "a" "INT" true none .none]⟩]⟩

/-- The statement of the rebuild that fails. -/
def fullDiskCopy : Command :=
  .ddl (.copyRows "t" "t__rebuild" ["id", "created_at", "updated_at", "b", "a"])

def fullDiskFailure : Failure :=
  .statement (fullDiskCopy.sql .sqlite) "disk full" (.database none "disk full")

/-- The statement above speaks of runs that fail within a change: here one change was applied, and
the second statement of a rebuild is the last one to be sent. -/
theorem full_disk_statements :
    .called (.execute fullDiskCopy) (.failed fullDiskFailure) ∈
      (updateSchema (Script.backend .sqlite) fullDiskSchema ⟨true, false⟩).trace fullDiskHandle ∧
    ((updateSchema (Script.backend .sqlite) fullDiskSchema ⟨true, false⟩).run fullDiskHandle).1
      = .error fullDiskFailure ∧
    ∃ change sent, sent ++ [fullDiskCopy.sql .sqlite] <+: Dialect.changeSql .sqlite change ∧
      Event.executedSql .sqlite ((updateSchema (Script.backend .sqlite) fullDiskSchema
        ⟨true, false⟩).trace fullDiskHandle) =
          Dialect.changeSql .sqlite (.addColumn "t" fullDiskAdded "id") ++
            (sent ++ [fullDiskCopy.sql .sqlite]) := by
  have hfailed : .called (.execute fullDiskCopy) (.failed fullDiskFailure) ∈
      (updateSchema (Script.backend .sqlite) fullDiskSchema ⟨true, false⟩).trace
        fullDiskHandle := by
    decide +kernel
  have hrecords : Event.records ((updateSchema (Script.backend .sqlite) fullDiskSchema
      ⟨true, false⟩).trace fullDiskHandle) =
        [.of .sqlite (.addColumn "t" fullDiskAdded "id") .applied] := by
    decide +kernel
  obtain ⟨hresult, change, sent, before, -, hprefix, hsql, -⟩ :=
    (update_schema_statements (Script.backend .sqlite) fullDiskSchema ⟨true, false⟩
      fullDiskHandle).2.2 fullDiskCopy fullDiskFailure hfailed
  rw [hrecords, List.filter_cons_of_pos rfl, List.filter_nil, List.flatMap_singleton] at hsql
  exact ⟨hfailed, hresult, change, sent, hprefix, hsql⟩

end Session

end SchemaKeeper

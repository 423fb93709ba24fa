import Mathlib.Data.List.Basic
import SchemaKeeper.Engine.Script
import SchemaKeeper.Proofs.Session.Faithful
import SchemaKeeper.Proofs.Synchronization.Attempts
import SchemaKeeper.Proofs.Synchronization.Scope

/-!
# What an interrupted rebuild leaves behind

A rebuild begins by creating a scratch table. If the engine fails a later statement of it, the
scratch table stays, and the next rebuild of the same table begins by creating it again.
`Session.interrupted_rebuild_blocks` shows two such runs. Nothing else can be in the way of a
statement that creates a table: `Session.update_schemas_create` says of any number of runs under any
failures that such a statement finds its table in place only if it is a scratch table that an
interrupted rebuild left, or one whose name is declared as well.
-/

namespace SchemaKeeper

namespace Ddl

/-- The tables that stand after a statement that is carried out, if the given ones stood before. -/
def tablesAfter : Ddl → List String → List String
  | .createTable t _, tables => t :: tables
  | .dropTable t, tables => tables.filter (· ≠ t)
  | .renameTable t n, tables => n :: tables.filter (· ≠ t)
  | _, tables => tables

/-- The statement brings no table and takes none away. -/
def KeepsTables : Ddl → Prop
  | .createTable .. | .dropTable _ | .renameTable .. => False
  | _ => True

theorem KeepsTables.tables_after {s : Ddl} (h : s.KeepsTables) (tables : List String) :
    s.tablesAfter tables = tables := by
  cases s with
  | createTable | dropTable | renameTable => exact h.elim
  | _ => rfl

/-- One of the statements by which a rebuild goes on once its scratch table stands, up to the one
that puts the scratch table in place. -/
def FinishesRebuild (table : String) : Ddl → Prop
  | .copyRows source target _ => source = table ∧ target = Dialect.scratchName table
  | .dropTable t => t = table
  | .renameTable t n => t = Dialect.scratchName table ∧ n = table
  | _ => False

end Ddl

namespace Attempt

variable {past attempts : List Attempt} {table n : String}

/-- The tables that stand after an attempt: one that failed changes nothing. -/
def tablesAfter (tables : List String) (a : Attempt) : List String :=
  if a.succeeded then a.statement.tablesAfter tables else tables

/-- The tables that some attempts brought and did not take away again. -/
def standing (attempts : List Attempt) : List String := attempts.foldl tablesAfter []

theorem standing_append (past attempts : List Attempt) :
    standing (past ++ attempts) = attempts.foldl tablesAfter (standing past) :=
  List.foldl_append

/-- Statements that keep tables leave the same ones standing, whether or not they succeed. -/
theorem standing_append_keeps (h : ∀ a ∈ attempts, a.statement.KeepsTables) :
    standing (past ++ attempts) = standing past := by
  rw [standing_append]
  generalize standing past = tables
  induction attempts with
  | nil => rfl
  | cons a rest ih =>
      obtain ⟨ha, hrest⟩ := List.forall_mem_cons.mp h
      have hkept : tablesAfter tables a = tables := by
        unfold tablesAfter
        split
        · exact ha.tables_after tables
        · rfl
      rw [List.foldl_cons, hkept, ih hrest]

/-- A statement that creates a table leaves this table standing at most, beside the ones before. -/
theorem mem_standing_create {columns : List Column} {succeeded : Bool}
    (h : n ∈ standing (past ++ [⟨.createTable table columns, succeeded⟩])) :
    n = table ∨ n ∈ standing past := by
  rw [standing_append] at h
  cases succeeded with
  | false => exact .inr h
  | true => exact List.mem_cons.mp h

/-- A rebuild of the table was interrupted: its scratch table stood, and a statement after that
failed. -/
def Interrupted (table : String) (attempts : List Attempt) : Prop :=
  ∃ a ∈ attempts, a.succeeded = false ∧ a.statement.FinishesRebuild table

theorem Interrupted.mono (h : Interrupted table past) (hsubset : past ⊆ attempts) :
    Interrupted table attempts := by
  obtain ⟨a, ha, hfailed⟩ := h
  exact ⟨a, hsubset ha, hfailed⟩

end Attempt

namespace Backend

variable {σ : Type} {b : Backend σ} {past : List Attempt}

/-- An event after some attempts that, if it answers the statement that lists tables, lists all that
stand. -/
def ListsStanding (b : Backend σ) (past : List Attempt) : Event → Prop
  | .called (.fetch sql) (.rows rows) => sql = b.tablesSql → Attempt.standing past ⊆ listed rows
  | _ => True

/-- Among the events after some attempts, each answer to the statement that lists tables reflects
the statements that succeeded before. -/
def Reflects (b : Backend σ) : List Attempt → List Event → Prop
  | _, [] => True
  | past, event :: rest =>
    b.ListsStanding past event ∧ b.Reflects (past ++ Event.attempts [event]) rest

theorem reflects_append {first second : List Event} : b.Reflects past (first ++ second) ↔
    b.Reflects past first ∧ b.Reflects (past ++ Event.attempts first) second := by
  induction first generalizing past with
  | nil =>
      have hnone : Event.attempts [] = [] := rfl
      rw [hnone, List.append_nil]
      exact ⟨fun h => ⟨trivial, h⟩, fun h => h.2⟩
  | cons event rest ih =>
      have hcons : Event.attempts (event :: rest) = Event.attempts [event] ++ Event.attempts rest :=
        Event.attempts_append [event] rest
      rw [List.cons_append, Reflects, Reflects, ih, hcons, List.append_assoc, and_assoc]

/-- While nothing is attempted, each answer lists what stood at first. -/
theorem Reflects.listed {events : List Event} (h : b.Reflects past events)
    (hevents : Event.attempts events = []) {rows : List Row}
    (hrows : .called (.fetch b.tablesSql) (.rows rows) ∈ events) :
    Attempt.standing past ⊆ SchemaKeeper.listed rows := by
  obtain ⟨before, after, rfl⟩ := List.append_of_mem hrows
  rw [Event.attempts_append] at hevents
  obtain ⟨-, hanswer⟩ := reflects_append.mp h
  rw [List.append_eq_nil_iff.mp hevents |>.1, List.append_nil] at hanswer
  exact hanswer.1 rfl

end Backend

namespace Synchronization

open Attempt Session

variable {σ : Type} {b : Backend σ} {options : SyncOptions}
  {declared existing existing' : List String} {failure : Option Failure}
  {past attempts : List Attempt} {table : String}

/-- A table of this name may stand when it is to be created: it is the scratch table of a declared
one, and is declared itself or was left by a rebuild that was interrupted. -/
def Excused (declared : List String) (past : List Attempt) (n : String) : Prop :=
  ∃ t ∈ declared, n = Dialect.scratchName t ∧ (n ∈ declared ∨ Interrupted t past)

/-- What is excused stays so. -/
theorem Excused.append {n : String} (h : Excused declared past n) (attempts : List Attempt) :
    Excused declared (past ++ attempts) n := by
  obtain ⟨t, ht, hn, hcause⟩ := h
  exact ⟨t, ht, hn, hcause.imp_right fun h => h.mono (List.subset_append_left _ _)⟩

/-- Whatever table was to be created did not stand, or is excused. -/
def CreatesFresh (declared : List String) (past : List Attempt) : Prop :=
  ∀ before n columns succeeded after,
    past = before ++ ⟨.createTable n columns, succeeded⟩ :: after → n ∈ standing before →
      Excused declared before n

namespace CreatesFresh

theorem snoc (h : CreatesFresh declared past) {a : Attempt}
    (ha : ∀ n columns, a.statement = .createTable n columns → n ∈ standing past →
      Excused declared past n) : CreatesFresh declared (past ++ [a]) := by
  intro before n columns succeeded after heq
  rcases List.eq_nil_or_concat' after with rfl | ⟨after, last, rfl⟩
  · obtain ⟨rfl, hlast⟩ := List.append_inj' heq rfl
    cases hlast
    exact ha n columns rfl
  · rw [← List.cons_append, ← List.append_assoc] at heq
    obtain ⟨rfl, -⟩ := List.append_inj' heq rfl
    exact h before n columns succeeded after rfl

/-- Where nothing more is created there is nothing more to excuse. -/
theorem append (h : CreatesFresh declared past)
    (hattempts : ∀ a ∈ attempts, ∀ n columns, a.statement ≠ .createTable n columns) :
    CreatesFresh declared (past ++ attempts) := by
  induction attempts generalizing past with
  | nil => rwa [List.append_nil]
  | cons a rest ih =>
      obtain ⟨ha, hrest⟩ := List.forall_mem_cons.mp hattempts
      rw [← List.singleton_append, ← List.append_assoc]
      exact ih (h.snoc fun n columns hcreate => absurd hcreate (ha n columns)) hrest

end CreatesFresh

/-- What holds of the attempts of some runs over the declared tables: none was to create a table
that stood but for the excused ones, and all that stands is declared or excused. -/
structure InOrder (declared : List String) (past : List Attempt) : Prop where
  fresh : CreatesFresh declared past
  accounted : ∀ n ∈ standing past, n ∈ declared ∨ Excused declared past n

/-- Where the given tables exist at first, a part of a run keeps the attempts in order, and if it
goes through, what stands is among the tables that exist afterwards. -/
def Upkeep (declared existing existing' : List String) (failure : Option Failure)
    (attempts : List Attempt) : Prop :=
  ∀ past, InOrder declared past → standing past ⊆ existing →
    InOrder declared (past ++ attempts) ∧
      (failure = none → standing (past ++ attempts) ⊆ existing')

namespace Upkeep

theorem nil (h : existing ⊆ existing') : Upkeep declared existing existing' failure [] := by
  intro past hpast hexisting
  rw [List.append_nil]
  exact ⟨hpast, fun _ => List.Subset.trans hexisting h⟩

theorem append {middle : List String} {first second : List Attempt}
    (hfirst : Upkeep declared existing middle none first)
    (hsecond : Upkeep declared middle existing' failure second) :
    Upkeep declared existing existing' failure (first ++ second) := by
  intro past hpast hexisting
  obtain ⟨hmiddle, hlisted⟩ := hfirst past hpast hexisting
  rw [← List.append_assoc]
  exact hsecond _ hmiddle (hlisted rfl)

/-- Statements that keep tables are of no concern. -/
theorem of_keeps (h : ∀ a ∈ attempts, a.statement.KeepsTables) :
    Upkeep declared existing existing failure attempts := by
  intro past hpast hexisting
  rw [standing_append_keeps h]
  refine ⟨⟨hpast.fresh.append fun a ha n columns hcreate => ?_, fun n hn => ?_⟩, fun _ => hexisting⟩
  · have hkeeps := h a ha
    rw [hcreate] at hkeeps
    exact hkeeps
  · rw [standing_append_keeps h] at hn
    exact (hpast.accounted n hn).imp_right fun h => h.append _

/-- A declared table that does not exist is created fresh. -/
theorem of_creation (hdeclared : table ∈ declared) (hmissing : table ∉ existing)
    (h : Tried [.createTable table []] failure attempts) :
    Upkeep declared existing (existing ++ [table]) failure attempts := by
  obtain rfl | ⟨succeeded, more, rfl, hmore⟩ := h.cons_inv
  · exact nil (List.subset_append_left _ _)
  · obtain rfl : more = [] := List.map_eq_nil_iff.mp (List.prefix_nil.mp hmore)
    intro past hpast hexisting
    refine ⟨⟨hpast.fresh.snoc fun n columns hcreate hn => ?_, fun n hn => ?_⟩, fun _ n hn => ?_⟩
    · cases hcreate
      exact absurd (hexisting hn) hmissing
    · rcases mem_standing_create hn with rfl | hn
      · exact .inl hdeclared
      · exact (hpast.accounted n hn).imp_right fun h => h.append _
    · rcases mem_standing_create hn with rfl | hn
      · exact List.mem_append_right _ (List.mem_singleton_self n)
      · exact List.mem_append_left _ (hexisting hn)

end Upkeep

theorem index_statement_keeps {column : String} {kind : IndexKind} {s : Ddl}
    (hs : Dialect.indexStatement? .sqlite table column kind = some s) : s.KeepsTables := by
  unfold Dialect.indexStatement? at hs
  split at hs
  · cases hs
    trivial
  · cases hs

/-- The statements that create the indexes of a rebuilt table keep tables. -/
theorem rebuild_indexes_keep {columns : List Column} {s : Ddl}
    (hs : s ∈ columns.filterMap fun c => Dialect.indexStatement? .sqlite table c.name c.index) :
    s.KeepsTables := by
  obtain ⟨c, -, hc⟩ := List.mem_filterMap.mp hs
  exact index_statement_keeps hc

/-- Apart from creations and rebuilds, changes keep tables. -/
theorem statements_keep {change : Change} (hcreation : ∀ t, change ≠ .createTable t)
    (hrebuild : ∀ t c cs, change ≠ .modifyColumn t c cs) {s : Ddl}
    (hs : s ∈ Dialect.statements .sqlite change) : s.KeepsTables := by
  cases change with
  | createTable t => exact absurd rfl (hcreation t)
  | modifyColumn t c cs => exact absurd rfl (hrebuild t c cs)
  | addColumn t c after =>
      rcases List.mem_cons.mp hs with rfl | hs
      · trivial
      · exact index_statement_keeps (Option.mem_toList.mp hs)
  | dropColumn t c index =>
      rcases List.mem_append.mp hs with hs | hs
      · obtain ⟨name, -, rfl⟩ := Option.map_eq_some_iff.mp (Option.mem_toList.mp hs)
        trivial
      · cases List.mem_singleton.mp hs
        trivial
  | addIndex t c kind => exact index_statement_keeps (Option.mem_toList.mp hs)
  | dropIndex t c name =>
      cases List.mem_singleton.mp hs
      trivial

/-- Once the scratch table is in place, only the table itself is new, whatever becomes of the
indexes. -/
theorem standing_rebuilt {columns : List Column} {copied : List String} {indexes : List Attempt}
    (hindexes : ∀ a ∈ indexes, a.statement.KeepsTables) {n : String}
    (hn : n ∈ standing (past ++
      ([⟨.createTable (Dialect.scratchName table) columns, true⟩,
        ⟨.copyRows table (Dialect.scratchName table) copied, true⟩,
        ⟨.dropTable table, true⟩,
        ⟨.renameTable (Dialect.scratchName table) table, true⟩] ++ indexes))) :
    n = table ∨ n ∈ standing past := by
  rw [← List.append_assoc, standing_append_keeps hindexes, standing_append] at hn
  change n ∈ table :: ((Dialect.scratchName table :: standing past).filter (· ≠ table)).filter
    (· ≠ Dialect.scratchName table) at hn
  rcases List.mem_cons.mp hn with rfl | hn
  · exact .inl rfl
  · obtain ⟨hn, hscratch⟩ := List.mem_filter.mp hn
    rcases List.mem_cons.mp (List.mem_of_mem_filter hn) with rfl | hn
    · simp at hscratch
    · exact .inr hn

/-- What a rebuild leaves: at most the table itself if it went through or failed at its first
statement or at an index, and else the scratch table, for it was interrupted. -/
theorem rebuild_leaves {columns : List Column}
    (h : Attempted (Dialect.rebuild table columns) failure attempts) (past : List Attempt) :
    (∀ n ∈ standing (past ++ attempts), n = table ∨ n ∈ standing past) ∨
      failure ≠ none ∧ Interrupted table attempts ∧
        ∀ n ∈ standing (past ++ attempts), n = Dialect.scratchName table ∨ n ∈ standing past := by
  generalize hs : Dialect.rebuild table columns = statements at h
  cases h with
  | all =>
      subst hs
      refine .inl fun n hn => standing_rebuilt (fun a ha => ?_) hn
      obtain ⟨s, hs, rfl⟩ := List.mem_map.mp ha
      exact rebuild_indexes_keep hs
  | stopped done s rest e =>
      rcases done with _ | ⟨d1, _ | ⟨d2, _ | ⟨d3, _ | ⟨d4, done⟩⟩⟩⟩
      · refine .inl fun n hn => .inr ?_
        rwa [standing_append] at hn
      · cases hs
        refine .inr ⟨(fun h => nomatch h), ?_, fun n hn => ?_⟩
        · exact ⟨_, List.mem_append_right _ (List.mem_singleton_self _), rfl, rfl, rfl⟩
        · simpa [standing_append, tablesAfter, Ddl.tablesAfter] using hn
      · cases hs
        refine .inr ⟨(fun h => nomatch h), ?_, fun n hn => ?_⟩
        · exact ⟨_, List.mem_append_right _ (List.mem_singleton_self _), rfl, rfl⟩
        · simpa [standing_append, tablesAfter, Ddl.tablesAfter] using hn
      · cases hs
        refine .inr ⟨(fun h => nomatch h), ?_, fun n hn => ?_⟩
        · exact ⟨_, List.mem_append_right _ (List.mem_singleton_self _), rfl, rfl, rfl⟩
        · simp [standing_append, tablesAfter, Ddl.tablesAfter] at hn
          exact hn.1
      · simp only [Dialect.rebuild, List.cons_append, List.nil_append, List.cons.injEq] at hs
        obtain ⟨rfl, rfl, rfl, rfl, hs⟩ := hs
        have hkeep : ∀ s' ∈ done ++ s :: rest, s'.KeepsTables :=
          hs ▸ fun _ => rebuild_indexes_keep
        refine .inl fun n hn => standing_rebuilt (fun a ha => ?_) hn
        rcases List.mem_append.mp ha with ha | ha
        · obtain ⟨s', hs', rfl⟩ := List.mem_map.mp ha
          exact hkeep s' (List.mem_append_left _ hs')
        · cases List.mem_singleton.mp ha
          exact hkeep s (List.mem_append_right _ List.mem_cons_self)

/-- Of the statements of a rebuild only the first one creates a table. -/
theorem rebuild_creates_once {columns : List Column} {rest : List Ddl}
    (hrest : Dialect.rebuild table columns =
      .createTable (Dialect.scratchName table) columns :: rest) (n : String)
    (columns' : List Column) : Ddl.createTable n columns' ∉ rest := by
  obtain ⟨-, rfl⟩ := List.cons.inj hrest
  intro hmem
  have hindexes : Ddl.createTable n columns' ∈
      columns.filterMap fun c => Dialect.indexStatement? .sqlite table c.name c.index := by
    simpa using hmem
  exact rebuild_indexes_keep hindexes

/-- A rebuild of a declared table that exists begins with the scratch table, which may be excused,
and ends with the table in place or with another scratch table to excuse. -/
theorem Upkeep.of_rebuild {columns : List Column} (hdeclared : table ∈ declared)
    (hexists : table ∈ existing) (h : Tried (Dialect.rebuild table columns) failure attempts) :
    Upkeep declared existing existing failure attempts := by
  obtain rfl | ⟨succeeded, more, hattempts, hmore⟩ := h.cons_inv
  · exact nil (List.Subset.refl _)
  replace h := h.resolve_right fun hunsent => nomatch hattempts.symm.trans hunsent.2
  intro past hpast hexisting
  have hkept : ∀ n ∈ standing past, n ∈ declared ∨ Excused declared (past ++ attempts) n :=
    fun n hn => (hpast.accounted n hn).imp_right fun h => h.append _
  have hfresh : CreatesFresh declared (past ++ attempts) := by
    rw [hattempts, List.append_cons]
    refine (hpast.fresh.snoc fun n columns' hcreate hn => ?_).append
      fun a ha n columns' hcreate => ?_
    · -- The scratch table stands already: it is declared too, or was left behind.
      cases hcreate
      exact (hpast.accounted _ hn).elim (fun h => ⟨table, hdeclared, rfl, .inl h⟩) id
    · refine rebuild_creates_once rfl n columns' (hmore.subset ?_)
      exact hcreate ▸ List.mem_map_of_mem ha
  rcases rebuild_leaves h past with hleaves | ⟨hfailed, hinterrupted, hleaves⟩
  · refine ⟨⟨hfresh, fun n hn => ?_⟩, fun _ n hn => ?_⟩
    · rcases hleaves n hn with rfl | hn
      · exact .inl hdeclared
      · exact hkept n hn
    · rcases hleaves n hn with rfl | hn
      · exact hexists
      · exact hexisting hn
  · refine ⟨⟨hfresh, fun n hn => ?_⟩, fun h => absurd h hfailed⟩
    rcases hleaves n hn with rfl | hn
    · exact .inr ⟨table, hdeclared, rfl,
        .inr (hinterrupted.mono (List.subset_append_right _ _))⟩
    · exact hkept n hn

/-- A change to a declared table that exists keeps the attempts in order. -/
theorem Upkeep.of_change {change : Change} (hcreation : ∀ t, change ≠ .createTable t)
    (hdeclared : change.table ∈ declared) (hexists : change.table ∈ existing)
    (h : Tried (Dialect.statements .sqlite change) failure attempts) :
    Upkeep declared existing existing failure attempts := by
  by_cases hrebuild : ∃ t c cs, change = .modifyColumn t c cs
  · obtain ⟨t, c, cs, rfl⟩ := hrebuild
    exact of_rebuild hdeclared hexists h
  · refine of_keeps fun a ha => statements_keep hcreation ?_ (h.in_order.subset ?_)
    · exact fun t c cs hchange => hrebuild ⟨t, c, cs, hchange⟩
    · exact List.mem_map_of_mem ha

section Runs

theorem upkeep_cumulative (declared existing : List String) : Cumulative fun failure events =>
    Upkeep declared existing existing failure (Event.attempts events) := by
  constructor
  · intro failure events _ hcommands
    rw [Event.attempts_eq_nil hcommands]
    exact Upkeep.nil (List.Subset.refl _)
  · intro failure first second hfirst hsecond
    rw [Event.attempts_append]
    exact hfirst.append hsecond

/-- Carrying out a change is trying its statements, if it is carried out at all. -/
theorem apply_tried (b : Backend σ) (options : SyncOptions) (change : Change) :
    (apply b options change).Shows fun result events =>
      Tried (b.dialect.statements change) (failureOf result) (Event.attempts events) ∨
        Event.attempts events = [] := by
  have hnote : ∀ record : ChangeRecord,
      (note record >>= fun _ => pure record : Session σ ChangeRecord).Shows fun result events =>
        failureOf result = none ∧ Event.attempts events = [] := by
    intro record db
    rw [note_events]
    exact ⟨rfl, rfl⟩
  have hexecuted : (apply b options change).Shows fun result events =>
      Tried (ChangeRecord.of b.dialect change (outcomeOf options change)).executed
        (failureOf result) (Event.attempts events) := by
    unfold apply
    refine (execute_all_tried b _).bind (fun _ => hnote _) (fun _ _ h => h) ?_
    rintro _ first result second h ⟨hresult, hsecond⟩
    rw [hresult, Event.attempts_append, hsecond, List.append_nil]
    exact h
  refine hexecuted.mono fun result events h => ?_
  rw [executed_of] at h
  split at h
  · exact .inl h
  · exact .inr (List.map_eq_nil_iff.mp (List.prefix_nil.mp h.in_order))

variable (hb : b.dialect = .sqlite)

include hb

theorem admits_upkeep {change : Change} (hcreation : ∀ t, change ≠ .createTable t)
    (hdeclared : change.table ∈ declared) (hexists : change.table ∈ existing) :
    Admits b options (fun failure events =>
      Upkeep declared existing existing failure (Event.attempts events)) change := by
  constructor
  · refine (apply_tried b options change).mono fun result events h => ?_
    rw [hb] at h
    rcases h with h | h
    · exact .of_change hcreation hdeclared hexists h
    · rw [h]
      exact .nil (List.Subset.refl _)
  · intro _ db
    unfold skip
    rw [note_events]
    exact .nil (List.Subset.refl _)

/-- The tables that are taken to exist once a table was brought about. -/
theorem ensure_table_upkeep (options : SyncOptions) (existing : List String)
    (hdeclared : table ∈ declared) :
    (ensureTable b options table (existing.contains table)).Obeys fun failure events =>
      Upkeep declared existing
        (if existing.contains table then existing else existing ++ [table])
        failure (Event.attempts events) := by
  unfold ensureTable
  split
  · exact Shows.pure (.nil (List.Subset.refl _))
  · next hmissing =>
      have hcreate : (apply b options (.createTable table)).Obeys fun failure events =>
          Upkeep declared existing (existing ++ [table]) failure (Event.attempts events) := by
        refine (apply_tried b options _).mono fun result events h => ?_
        rw [hb] at h
        rcases h with h | h
        · exact .of_creation hdeclared (fun h => hmissing (List.contains_iff_mem.mpr h)) h
        · rw [h]
          exact .nil (List.subset_append_left _ _)
      exact Shows.map hcreate _ (fun _ _ h => h) fun _ _ h => h

theorem sync_table_upkeep (options : SyncOptions) (existing : List String) {t : Table}
    (hdeclared : t.name ∈ declared) :
    (syncTable b options t (existing.contains t.name)).Obeys fun failure events =>
      Upkeep declared existing
        (if existing.contains t.name then existing else existing ++ [t.name])
        failure (Event.attempts events) := by
  have hexists : t.name ∈ if existing.contains t.name then existing else existing ++ [t.name] := by
    split
    · next h => exact List.contains_iff_mem.mp h
    · exact List.mem_append_right _ (List.mem_singleton_self _)
  have hensure := ensure_table_upkeep hb options existing hdeclared
  rw [sync_table_eq]
  generalize (if existing.contains t.name then existing else existing ++ [t.name]) = existing'
    at hexists hensure ⊢
  have hinv := upkeep_cumulative declared existing'
  have hrest : ∀ created,
      (liveColumns b options t.name (existing.contains t.name) >>= fun live =>
        dropAll b options t.name (stale t live) live >>= fun p =>
        syncColumns b options t.name "id" t.columns p.1 >>= fun synced =>
        pure (created ++ p.2 ++ synced)).Obeys fun failure events =>
          Upkeep declared existing' existing' failure (Event.attempts events) := by
    intro created
    refine (Obeys.of_quiet hinv (live_columns_quiet _)).bind hinv fun live => ?_
    refine (drop_all_obeys hinv (fun _ _ name index _ => ?_) live).bind hinv fun p => ?_
    · exact admits_upkeep hb (fun _ h => nomatch h) hdeclared hexists
    · refine (sync_columns_obeys hinv (fun c _ change hchange => ?_) "id" p.1).map hinv _
      have htable := hchange.table_eq
      refine admits_upkeep hb ?_ (htable ▸ hdeclared) (htable ▸ hexists)
      rintro _ rfl
      exact hchange
  refine Shows.bind hensure hrest (fun _ _ h => h) fun _ _ _ _ hfirst hsecond => ?_
  dsimp only
  rw [Event.attempts_append]
  exact hfirst.append hsecond

theorem sync_tables_upkeep (options : SyncOptions) {tables : List Table}
    (hdeclared : ∀ t ∈ tables, t.name ∈ declared) (existing : List String) :
    (syncTables b options tables existing).Obeys fun failure events =>
      ∃ existing', Upkeep declared existing existing' failure (Event.attempts events) := by
  induction tables generalizing existing with
  | nil => exact Shows.pure ⟨existing, .nil (List.Subset.refl _)⟩
  | cons t rest ih =>
      obtain ⟨htable, hrest⟩ := List.forall_mem_cons.mp hdeclared
      rw [sync_tables_cons]
      generalize hmiddle : (if existing.contains t.name then existing else existing ++ [t.name])
        = middle
      have hothers : ∀ records, (syncTables b options rest middle >>= fun others =>
          pure (records ++ others)).Obeys fun failure events =>
            ∃ existing', Upkeep declared middle existing' failure (Event.attempts events) :=
        fun records => Shows.map (ih hrest middle) _ (fun _ _ h => h) fun _ _ h => h
      refine Shows.bind (sync_table_upkeep hb options existing htable) hothers
        (fun _ _ h => ⟨_, h⟩) ?_
      rintro _ first result second hfirst ⟨existing', hsecond⟩
      subst hmiddle
      rw [Event.attempts_append]
      exact ⟨existing', hfirst.append hsecond⟩

omit hb in
/-- The names of tables that a session goes on with are those that an answer lists. -/
theorem tables_listed (b : Backend σ) : (Session.tables b).Shows fun result events =>
    Event.attempts events = [] ∧ ∀ names, result = .ok names →
      ∃ rows, .called (.fetch b.tablesSql) (.rows rows) ∈ events ∧ names = listed rows := by
  have hquiet : (query b b.tablesSql).Shows fun _ events => Event.attempts events = [] :=
    fun db => Event.attempts_eq_nil (Quiet.query b b.tablesSql db).2
  refine (hquiet.and (connected_call_shows b _ _ _ _)).map _ ?_ ?_
  · exact fun e events h => ⟨h.1, fun _ h => nomatch h⟩
  · rintro rows events ⟨hevents, hrows⟩
    refine ⟨hevents, ?_⟩
    rintro _ ⟨⟩
    exact ⟨rows, hrows rows rfl, rfl⟩

/-- A run over declared tables keeps the attempts in order if the engine lists what stands. -/
theorem update_schema_in_order {schema : Schema}
    (hdeclared : ∀ t ∈ schema.tables, t.name ∈ declared) :
    (updateSchema b schema options).Shows fun _ events =>
      ∀ past, InOrder declared past → b.Reflects past events →
        InOrder declared (past ++ Event.attempts events) := by
  unfold updateSchema
  refine (tables_listed b).bind (sync_tables_upkeep hb options hdeclared) ?_ ?_
  · rintro e events ⟨hevents, -⟩ past hpast -
    rwa [hevents, List.append_nil]
  · rintro existing first result second ⟨hfirst, hnames⟩ ⟨existing', hsecond⟩ past hpast hreflects
    obtain ⟨rows, hrows, rfl⟩ := hnames existing rfl
    have hlisted := (Backend.reflects_append.mp hreflects).1.listed hfirst hrows
    rw [Event.attempts_append, hfirst]
    exact (hsecond past hpast hlisted).1

end Runs

/-- A synchronization and the handle that it starts from, which may be a fresh one. -/
structure Run (σ : Type) where
  schema : Schema
  options : SyncOptions
  start : Handle σ

/-- The events of a run. -/
def Run.events (b : Backend σ) (run : Run σ) : List Event :=
  (updateSchema b run.schema run.options).trace run.start

/-- The names of the tables that some runs declare. -/
def declaredTables (runs : List (Run σ)) : List String :=
  runs.flatMap fun run => run.schema.tables.map Table.name

theorem runs_in_order (hb : b.dialect = .sqlite) {runs : List (Run σ)}
    (hdeclared : ∀ run ∈ runs, ∀ t ∈ run.schema.tables, t.name ∈ declared)
    (hpast : InOrder declared past) (hreflects : b.Reflects past (runs.flatMap (Run.events b))) :
    InOrder declared (past ++ Event.attempts (runs.flatMap (Run.events b))) := by
  induction runs generalizing past with
  | nil => rwa [List.flatMap_nil, Event.attempts, List.filterMap_nil, List.append_nil]
  | cons run rest ih =>
      obtain ⟨hrun, hrest⟩ := List.forall_mem_cons.mp hdeclared
      rw [List.flatMap_cons, Backend.reflects_append] at hreflects
      rw [List.flatMap_cons, Event.attempts_append, ← List.append_assoc]
      refine ih hrest ?_ hreflects.2
      exact update_schema_in_order hb hrun run.start past hpast hreflects.1

end Synchronization

namespace Session

open Synchronization

variable {σ : Type}

/-- Over any runs, whatever statements fail, a table that stands is to be created again only if it
is the scratch table of a declared table, and this one was left behind when a rebuild was
interrupted, or the name of the scratch table is declared as well. The engine is only assumed to
list all tables that stand when it is asked for tables. -/
theorem update_schemas_create (b : Backend σ) (hb : b.dialect = .sqlite) (runs : List (Run σ))
    (hreflects : b.Reflects [] (runs.flatMap (Run.events b))) {before after : List Attempt}
    {n : String} {columns : List Column} {succeeded : Bool}
    (hattempts : Event.attempts (runs.flatMap (Run.events b)) =
      before ++ ⟨.createTable n columns, succeeded⟩ :: after)
    (hstanding : n ∈ Attempt.standing before) :
    ∃ table ∈ declaredTables runs, n = Dialect.scratchName table ∧
      (n ∈ declaredTables runs ∨ Attempt.Interrupted table before) := by
  have hstart : InOrder (declaredTables runs) [] := by
    constructor
    · intro before n columns succeeded after h
      exact absurd h (by simp)
    · exact fun n hn => nomatch hn
  have hdeclared : ∀ run ∈ runs, ∀ t ∈ run.schema.tables, t.name ∈ declaredTables runs :=
    fun run hrun t ht => List.mem_flatMap.mpr ⟨run, hrun, List.mem_map_of_mem ht⟩
  have horder := runs_in_order hb hdeclared hstart hreflects
  rw [List.nil_append] at horder
  exact horder.fresh before n columns succeeded after hattempts hstanding

/-- A table with a column of another type than declared. -/
def interruptedDocument : Json := .object [("t", .object [("a", .object [("type", .text "TEXT")])])]

def interruptedSchema : Schema := ⟨[⟨"t", [.ofType "a" "TEXT" true none .none]⟩]⟩

/-- The row of a table in a listing. -/
def listedTable (name : String) : Row := ⟨[("name", some (.text name))]⟩

def interruptedLive : List LiveColumn := [⟨.ofType "a" "INT" true none .none, none⟩]

/-- In a first run the rows cannot be copied; in a second one the scratch table is in the way. -/
def interruptedHandle : Handle Script :=
  .start (some ⟨"localhost", none, "", "", "app"⟩) []
    { fetches := [.ok [listedTable "t"], .ok [listedTable "t", listedTable "t__rebuild"]]
      describes := [.ok interruptedLive, .ok interruptedLive]
      executes := [.ok 0, .error (.statement "disk full" (.database none "disk full")),
        .error (.statement "table exists" (.database none "table exists"))] }

def interruptedRun : Run Script := ⟨interruptedSchema, ⟨true, false⟩, interruptedHandle⟩

/-- The run again, after it failed. -/
def repeatedRun : Run Script :=
  { interruptedRun with
    start := ((updateSchema (Script.backend .sqlite) interruptedSchema ⟨true, false⟩).run
      interruptedHandle).2 }

/-- The statement that creates the scratch table. -/
def scratchCreation : Ddl := .createTable "t__rebuild" [.ofType "a" "TEXT" true none .none]

/-- The statement that fails. -/
def scratchCopy : Ddl := .copyRows "t" "t__rebuild" ["id", "created_at", "updated_at", "a"]

def interruptedFailure (s : Ddl) (message : String) : Failure :=
  .statement (s.text .sqlite) message (.database none message)

/-- The events of both runs. -/
def interruptedEvents : List Event :=
  [.called (.connect ⟨"localhost", none, "", "", "app"⟩) .done,
    .called (.fetch "LIST TABLES") (.rows [listedTable "t"]),
    .attempted "LIST TABLES" none,
    .called (.describe "t") (.columns interruptedLive),
    .attempted "LIST COLUMNS OF t" none,
    .called (.execute (.ddl scratchCreation)) (.affected 0),
    .attempted (scratchCreation.text .sqlite) none,
    .called (.execute (.ddl scratchCopy)) (.failed (interruptedFailure scratchCopy "disk full")),
    .attempted (scratchCopy.text .sqlite) (some (interruptedFailure scratchCopy "disk full")),
    .called (.fetch "LIST TABLES") (.rows [listedTable "t", listedTable "t__rebuild"]),
    .attempted "LIST TABLES" none,
    .called (.describe "t") (.columns interruptedLive),
    .attempted "LIST COLUMNS OF t" none,
    .called (.execute (.ddl scratchCreation))
      (.failed (interruptedFailure scratchCreation "table exists")),
    .attempted (scratchCreation.text .sqlite)
      (some (interruptedFailure scratchCreation "table exists"))]

theorem interrupted_runs_events :
    [interruptedRun, repeatedRun].flatMap (Run.events (Script.backend .sqlite)) =
      interruptedEvents := by
  decide +kernel

/-- What was attempted before the second run creates the scratch table once more. -/
def attemptedBefore : List Attempt := [⟨scratchCreation, true⟩, ⟨scratchCopy, false⟩]

theorem interrupted_attempts :
    Event.attempts ([interruptedRun, repeatedRun].flatMap (Run.events (Script.backend .sqlite))) =
      attemptedBefore ++ [⟨scratchCreation, false⟩] := by
  rw [interrupted_runs_events]
  rfl

theorem interrupted_reflected : (Script.backend .sqlite).Reflects []
    ([interruptedRun, repeatedRun].flatMap (Run.events (Script.backend .sqlite))) := by
  rw [interrupted_runs_events]
  simp only [interruptedEvents, Backend.Reflects, Backend.ListsStanding, true_and, and_true]
  exact ⟨fun _ => by decide, fun _ => by decide⟩

theorem scratch_stands : "t__rebuild" ∈ Attempt.standing attemptedBefore := by
  decide

/-- The statement above speaks of runs in which a table that stands is to be created again: here it
was left behind by the first run. -/
theorem interrupted_runs_create :
    "t__rebuild" ∈ Attempt.standing attemptedBefore ∧
    ∃ table ∈ declaredTables [interruptedRun, repeatedRun],
      "t__rebuild" = Dialect.scratchName table ∧
        ("t__rebuild" ∈ declaredTables [interruptedRun, repeatedRun] ∨
          Attempt.Interrupted table attemptedBefore) :=
  ⟨scratch_stands, update_schemas_create (Script.backend .sqlite) rfl _ interrupted_reflected
    interrupted_attempts scratch_stands⟩

/-- A run that is repeated after a failure within a rebuild begins the rebuild with the scratch
table that the first one left, and does not get past it. -/
theorem interrupted_rebuild_blocks :
    Schema.ofJson interruptedDocument = .ok interruptedSchema ∧
    (Script.backend .sqlite).Reflects []
      ([interruptedRun, repeatedRun].flatMap (Run.events (Script.backend .sqlite))) ∧
    Event.attempts ([interruptedRun, repeatedRun].flatMap (Run.events (Script.backend .sqlite))) =
      [⟨.createTable "t__rebuild" [.ofType "a" "TEXT" true none .none], true⟩,
        ⟨.copyRows "t" "t__rebuild" ["id", "created_at", "updated_at", "a"], false⟩,
        ⟨.createTable "t__rebuild" [.ofType "a" "TEXT" true none .none], false⟩] ∧
    "t__rebuild" ∈ Attempt.standing
      [⟨.createTable "t__rebuild" [.ofType "a" "TEXT" true none .none], true⟩,
        ⟨.copyRows "t" "t__rebuild" ["id", "created_at", "updated_at", "a"], false⟩] :=
  ⟨rfl, interrupted_reflected, interrupted_attempts, scratch_stands⟩

end Session

end SchemaKeeper

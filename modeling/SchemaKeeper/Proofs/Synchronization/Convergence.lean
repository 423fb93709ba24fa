import SchemaKeeper.Engine.Script
import SchemaKeeper.Proofs.Schema.Grammar
import SchemaKeeper.Proofs.Synchronization.Tables

/-!
# Synchronization follows its plan and converges

Under a faithful engine a synchronization gives the log that the reference plan foresees,
`Session.update_schema_follows_plan`. A forced one leaves every declared table as declared, which is
`Converged`, so that a second one finds nothing to do, `Session.update_schema_converges`.
-/

namespace SchemaKeeper

/-- The options of a run that carries everything out. -/
def SyncOptions.forced : SyncOptions := { force := true, dryRun := false }

namespace Synchronization

open Session

variable {σ : Type} {b : Backend σ} {table : Table} {now : List LiveColumn}

/-- A structure as an engine may have it at first: the user columns of each table have distinct
clean names, and their indexes have clean names. -/
def WellFormed (s : Structure) : Prop :=
  ∀ table live, s table = some live →
    (live.map LiveColumn.name).Nodup ∧
      ∀ c ∈ live, Identifier.isReserved c.name = false ∧ Identifier.IsClean c.name ∧
        ∀ index, c.indexName = some index → Identifier.IsClean index

theorem WellFormed.settleable {s : Structure} (h : WellFormed s) (table : Table) :
    Settleable table ((s table.name).getD []) := by
  cases hs : s table.name with
  | none => exact ⟨List.nodup_nil, List.forall_mem_nil _, List.forall_mem_nil _⟩
  | some live =>
      obtain ⟨hnames, hcolumns⟩ := h table.name live hs
      exact ⟨hnames, fun c hc => (hcolumns c hc).1,
        fun c hc => (hcolumns c (List.mem_of_mem_filter hc)).2⟩

/-- The columns of a table are just the declared ones that are not reserved, as declared. -/
structure Converged (table : Table) (now : List LiveColumn) : Prop where
  names : (now.map LiveColumn.name).Nodup
  unreserved : ∀ c ∈ now, Identifier.isReserved c.name = false
  declared : ∀ c ∈ now, c.name ∈ table.columns.map Column.name
  agrees : ∀ d ∈ table.columns, Identifier.isReserved d.name = false → ∃ c ∈ now,
    c.name = d.name ∧ d.definitionDiffers c.spec = false ∧ c.spec.index = d.index

/-- A table that was forced to its declaration has converged. -/
theorem converged_of_layout {planned : List LiveColumn} (hplanned : Settleable table planned)
    (hcolumns : (table.columns.map Column.name).Nodup)
    (h : (now.map LiveColumn.spec).Perm
      (layout true ((kept true table planned).map LiveColumn.spec) table.columns)) :
    Converged table now := by
  -- A column was live and declared, or else it is new.
  have hname : ∀ c ∈ now, (c.name ∈ (kept true table planned).map LiveColumn.name) ∨
      (c.name ∈ table.columns.map Column.name ∧ Identifier.isReserved c.name = false) := by
    intro c hc
    have hmem := (names_perm h).mem_iff.mp (List.mem_map_of_mem hc)
    rw [layout_names, List.map_map, List.mem_append] at hmem
    refine hmem.imp_right fun hnew => ?_
    obtain ⟨hdeclared, hfree⟩ := List.mem_filter.mp hnew
    exact ⟨hdeclared, by simpa using (Bool.and_eq_true_iff.mp hfree).1⟩
  constructor
  · exact (names_perm h).nodup_iff.mpr (layout_kept_names_nodup hplanned.names hcolumns)
  · intro c hc
    rcases hname c hc with hkept | hnew
    · obtain ⟨d, hd, heq⟩ := List.mem_map.mp hkept
      rw [← heq]
      exact hplanned.unreserved d (mem_planned_of_kept hd)
    · exact hnew.2
  · intro c hc
    rcases hname c hc with hkept | hnew
    · obtain ⟨d, hd, heq⟩ := List.mem_map.mp hkept
      rw [← heq]
      exact List.contains_iff_mem.mp (List.mem_filter.mp hd).2
    · exact hnew.1
  · intro d hd hfree
    obtain ⟨spec, hspec, hagrees⟩ := layout_agrees hcolumns hd hfree
    obtain ⟨c, hc, rfl⟩ := List.mem_map.mp (h.mem_iff.mpr hspec)
    exact ⟨c, hc, hagrees⟩

/-- No live column of a converged table is stale. -/
theorem Converged.stale_eq_nil (h : Converged table now) : stale table now = [] := by
  refine List.filter_eq_nil_iff.mpr fun c hc => ?_
  rw [Bool.not_eq_true, Bool.not_eq_false', List.contains_iff_mem]
  exact h.declared c hc

theorem Converged.settleable (h : Converged table now) : Settleable table now :=
  ⟨h.names, h.unreserved, by rw [h.stale_eq_nil]; exact List.forall_mem_nil _⟩

/-- There is nothing to plan for a converged table. -/
theorem Converged.plan_table_eq_nil (h : Converged table now) (d : Dialect)
    (options : SyncOptions) : planTable d options table (some now) = [] := by
  have hcolumn : ∀ before, ∀ declared ∈ table.columns,
      planColumn d options table now before declared = [] := by
    intro before declared hdeclared
    unfold planColumn
    cases hreserved : Identifier.isReserved declared.name with
    | true => rfl
    | false =>
        obtain ⟨c, hc, hname, hdiffers, hindex⟩ := h.agrees declared hdeclared hreserved
        have hfind : now.find? (fun c => c.name = declared.name) = some c := by
          rw [← hname]
          exact find_of_names_nodup LiveColumn.name h.names hc
        rw [if_neg Bool.false_ne_true, hfind]
        dsimp only
        rw [planDefinition, planIndex, hdiffers, if_pos hindex]
        rfl
  -- The place of new columns moves on with `before`, which does not matter here.
  have hcolumns : ∀ columns before, (∀ c ∈ columns, c ∈ table.columns) →
      planColumns d options table now before columns = [] := by
    intro columns
    induction columns with
    | nil => exact fun _ _ => rfl
    | cons declared rest ih =>
        intro before hall
        obtain ⟨hdeclared, hrest⟩ := List.forall_mem_cons.mp hall
        rw [planColumns, hcolumn before declared hdeclared, ih _ hrest, List.nil_append]
  unfold planTable
  dsimp only
  rw [Option.getD_some, h.stale_eq_nil, hcolumns table.columns [] fun _ hc => hc]
  rfl

/-- A declaration of one table with one column. -/
def usersDocument : Json :=
  .object [("users", .object [("age", .object [("type", .text "INT")])])]

/-- The declared column. -/
def usersAge : Column := .ofType "age" "INT" true none .none

def usersSchema : Schema := ⟨[⟨"users", [usersAge]⟩]⟩

/-- A column that is not declared and one of another type. -/
def usersBefore : List LiveColumn :=
  [⟨.ofType "legacy" "INT" true none .unique, some "ix_legacy"⟩,
    ⟨.ofType "age" "VARCHAR(10)" true none .none, none⟩]

def usersBetween : List LiveColumn := [⟨.ofType "age" "VARCHAR(10)" true none .none, none⟩]

def usersAfter : List LiveColumn := [⟨usersAge, none⟩]

def usersRows : List Row := [⟨[("name", some (.text "users"))]⟩]

/-- An engine that lists the table twice and describes it before, during and after a run. -/
def usersHandle : Handle Script :=
  .start (some ⟨"localhost", none, "", "", "app"⟩) []
    { fetches := [.ok usersRows, .ok usersRows]
      describes := [.ok usersBefore, .ok usersAfter, .ok usersAfter] }

theorem users_listed (columns : List LiveColumn) (table : String) :
    table ∈ listed usersRows ↔ (Structure.only "users" columns table).isSome := by
  rw [show listed usersRows = ["users"] from rfl, List.mem_singleton, Structure.only]
  split <;> simp_all

theorem users_described {columns live : List LiveColumn}
    (hcolumns : columns.filter (fun c => !Identifier.isReserved c.name) = columns)
    (h : Structure.only "users" columns "users" = some live) :
    columns.filter (fun c => !Identifier.isReserved c.name) = live := by
  cases h
  exact hcolumns

theorem users_before_well_formed : WellFormed (.only "users" usersBefore) := by
  intro table live h
  unfold Structure.only at h
  split at h
  · cases h
    refine ⟨by decide, fun c hc => ?_⟩
    simp only [usersBefore, List.mem_cons, List.not_mem_nil, or_false] at hc
    rcases hc with rfl | rfl
    · refine ⟨by decide, by decide, ?_⟩
      rintro index ⟨⟩
      decide
    · refine ⟨by decide, by decide, ?_⟩
      rintro index ⟨⟩
  · cases h

/-- The engine is faithful during a forced run. -/
theorem users_run_replays : (Script.backend .mysql).Replays (.only "users" usersBefore)
    ((Session.updateSchema (Script.backend .mysql) usersSchema .forced).trace usersHandle)
    (.only "users" usersAfter) := by
  have htrace : (Session.updateSchema (Script.backend .mysql) usersSchema .forced).trace usersHandle
      = [.called (.connect ⟨"localhost", none, "", "", "app"⟩) .done,
        .called (.fetch "LIST TABLES") (.rows usersRows), .attempted "LIST TABLES" none,
        .called (.describe "users") (.columns usersBefore),
        .attempted "LIST COLUMNS OF users" none,
        .called (.execute (.ddl (.dropColumn "users" "legacy"))) (.affected 0),
        .attempted "ALTER TABLE users DROP COLUMN legacy" none,
        .recorded (.of .mysql (.dropColumn "users" "legacy" (some "ix_legacy")) .applied),
        .called (.execute (.ddl (.modifyColumn "users" usersAge))) (.affected 0),
        .attempted "ALTER TABLE users MODIFY age INT NULL" none,
        .recorded (.of .mysql (.modifyColumn "users" usersAge [usersAge]) .applied),
        .called (.describe "users") (.columns usersAfter),
        .attempted "LIST COLUMNS OF users" none] := by
    decide +kernel
  have hdrop : (Change.dropColumn "users" "legacy" (some "ix_legacy")).Effect
      (.only "users" usersBefore) (.only "users" usersBetween) :=
    Change.effect_only rfl (by decide +kernel)
  have hmodify : (Change.modifyColumn "users" usersAge [usersAge]).Effect
      (.only "users" usersBetween) (.only "users" usersAfter) :=
    Change.effect_only rfl (by decide +kernel)
  rw [htrace]
  exact .cons (.connected _ _) <| .cons (.listed _ _ (users_listed _)) <|
    .cons (.attempted _ _) <| .cons (.described _ _ _ fun _ => users_described rfl) <|
    .cons (.attempted _ _) <| .cons (.executed _ _ _) <| .cons (.attempted _ _) <|
    .cons (.applied _ _ _ rfl hdrop) <| .cons (.executed _ _ _) <| .cons (.attempted _ _) <|
    .cons (.applied _ _ _ rfl hmodify) <|
    .cons (.described _ _ _ fun _ => users_described rfl) <| .cons (.attempted _ _) (.nil _)

/-- The engine is faithful during a second run. -/
theorem users_again_replays : (Script.backend .mysql).Replays (.only "users" usersAfter)
    ((Session.updateSchema (Script.backend .mysql) usersSchema .forced).trace
      ((Session.updateSchema (Script.backend .mysql) usersSchema .forced).run usersHandle).2)
    (.only "users" usersAfter) := by
  have htrace : (Session.updateSchema (Script.backend .mysql) usersSchema .forced).trace
      ((Session.updateSchema (Script.backend .mysql) usersSchema .forced).run usersHandle).2
      = [.called (.fetch "LIST TABLES") (.rows usersRows), .attempted "LIST TABLES" none,
        .called (.describe "users") (.columns usersAfter),
        .attempted "LIST COLUMNS OF users" none] := by
    decide +kernel
  rw [htrace]
  exact .cons (.listed _ _ (users_listed _)) <| .cons (.attempted _ _) <|
    .cons (.described _ _ _ fun _ => users_described rfl) <| .cons (.attempted _ _) (.nil _)

end Synchronization

namespace Session

open Synchronization

variable {σ : Type}

/-- The log of a synchronization is the one that the reference plan foresees, for every declaration
with distinct names, every initial structure, and all options, whenever the engine is faithful. -/
theorem update_schema_follows_plan (b : Backend σ) (document : Json) (schema : Schema)
    (options : SyncOptions) (initial final : Structure) (db : Handle σ)
    (hschema : Schema.ofJson document = .ok schema)
    (htables : (schema.tables.map Table.name).Nodup)
    (hcolumns : ∀ table ∈ schema.tables, (table.columns.map Column.name).Nodup)
    (hinitial : WellFormed initial) (hready : db.CanConnect)
    (hfaithful : b.Replays initial ((updateSchema b schema options).trace db) final) :
    ∃ log, ((updateSchema b schema options).run db).1 = .ok log ∧
      Follows b.dialect (plan b.dialect options initial schema.tables) log := by
  have hstart : Ready initial schema.tables :=
    ⟨htables, Schema.clean_of_of_json hschema, hcolumns, fun table _ => hinitial.settleable table⟩
  obtain ⟨log, hrun, -, -, -, hlog⟩ := update_schema_yields hstart db final hready hfaithful
  exact ⟨log, hrun, hlog⟩

/-- The statement above has instances in which changes are made and the table is read again. -/
theorem users_run_follows_plan :
    ∃ log,
      ((updateSchema (Script.backend .mysql) usersSchema .forced).run usersHandle).1 = .ok log ∧
      Follows .mysql (plan .mysql .forced (.only "users" usersBefore) usersSchema.tables) log :=
  update_schema_follows_plan (Script.backend .mysql) usersDocument usersSchema .forced
    (.only "users" usersBefore) (.only "users" usersAfter) usersHandle rfl (by decide) (by decide)
    users_before_well_formed ⟨_, .inl rfl⟩ users_run_replays

/-- A forced synchronization succeeds and leaves all declared tables as declared. After it another
one has nothing to record and executes nothing. This is so whenever the engine is faithful during
both. -/
theorem update_schema_converges (b : Backend σ) (document : Json) (schema : Schema)
    (initial final : Structure) (db : Handle σ)
    (hschema : Schema.ofJson document = .ok schema)
    (htables : (schema.tables.map Table.name).Nodup)
    (hcolumns : ∀ table ∈ schema.tables, (table.columns.map Column.name).Nodup)
    (hinitial : WellFormed initial) (hready : db.CanConnect)
    (hfaithful : b.Replays initial
      ((updateSchema b schema .forced).trace db ++
        (updateSchema b schema .forced).trace ((updateSchema b schema .forced).run db).2) final) :
    (∃ log, ((updateSchema b schema .forced).run db).1 = .ok log) ∧
      (∀ mid, b.Replays initial ((updateSchema b schema .forced).trace db) mid →
        ∀ table ∈ schema.tables, ∃ now, mid table.name = some now ∧ Converged table now) ∧
      ((updateSchema b schema .forced).run ((updateSchema b schema .forced).run db).2).1 = .ok [] ∧
      Event.commands ((updateSchema b schema .forced).trace
        ((updateSchema b schema .forced).run db).2) = [] := by
  have hclean := Schema.clean_of_of_json hschema
  have hstart : Ready initial schema.tables :=
    ⟨htables, hclean, hcolumns, fun table _ => hinitial.settleable table⟩
  have hreached : ∀ mid, b.Replays initial ((updateSchema b schema .forced).trace db) mid →
      ∀ table ∈ schema.tables, ∃ now, mid table.name = some now ∧ Converged table now := by
    intro mid hfirst table htable
    obtain ⟨-, -, -, -, hsettled, -⟩ := update_schema_yields hstart db mid hready hfirst
    obtain ⟨now, hnow, hlayout⟩ := (hsettled table htable).reached rfl
    exact ⟨now, hnow, converged_of_layout (hinitial.settleable table) (hcolumns table htable)
      hlayout⟩
  obtain ⟨mid, hfirst, hsecond⟩ := Backend.Replays.append_iff.mp hfaithful
  obtain ⟨log, hrun, hready', -, -, -⟩ := update_schema_yields hstart db mid hready hfirst
  have hconverged := hreached mid hfirst
  have hagain : Ready mid schema.tables := by
    refine ⟨htables, hclean, hcolumns, fun table htable => ?_⟩
    obtain ⟨now, hnow, hnow'⟩ := hconverged table htable
    rw [hnow]
    exact hnow'.settleable
  have hplan : plan b.dialect .forced mid schema.tables = [] := by
    refine List.flatMap_eq_nil_iff.mpr fun table htable => ?_
    obtain ⟨now, hnow, hnow'⟩ := hconverged table htable
    rw [hnow]
    exact hnow'.plan_table_eq_nil _ _
  obtain ⟨log', hrun', -, -, -, hlog'⟩ := update_schema_yields hagain _ final hready' hsecond
  -- The second log follows an empty plan, and what was executed is in the log.
  rw [hplan] at hlog'
  cases hlog'
  obtain ⟨hrecords, hcommands⟩ := update_schema_accounts b schema _ _ _ hrun'
  rw [List.nil_append, id] at hrecords
  rw [hrecords] at hcommands
  exact ⟨⟨log, hrun⟩, hreached, hrun', hcommands⟩

/-- The statement above has instances in which the first run makes changes, and in which what it
leaves is known. -/
theorem users_run_converges :
    (∀ table ∈ usersSchema.tables, ∃ now, Structure.only "users" usersAfter table.name = some now ∧
      Converged table now) ∧
    ((updateSchema (Script.backend .mysql) usersSchema .forced).run
      ((updateSchema (Script.backend .mysql) usersSchema .forced).run usersHandle).2).1
        = .ok [] := by
  obtain ⟨-, hreached, hagain, -⟩ :=
    update_schema_converges (Script.backend .mysql) usersDocument usersSchema
      (.only "users" usersBefore) (.only "users" usersAfter) usersHandle rfl (by decide) (by decide)
      users_before_well_formed ⟨_, .inl rfl⟩
      (Backend.Replays.append_iff.mpr ⟨_, users_run_replays, users_again_replays⟩)
  exact ⟨hreached _ users_run_replays, hagain⟩

end Session

end SchemaKeeper

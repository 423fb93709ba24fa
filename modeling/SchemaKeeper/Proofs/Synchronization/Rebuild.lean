import Mathlib.Data.List.Nodup
import SchemaKeeper.Proofs.Session.Moments
import SchemaKeeper.Proofs.Synchronization.Convergence
import SchemaKeeper.Proofs.Synchronization.Scope
import SchemaKeeper.Proofs.Synchronization.Statements

/-!
# A rebuild loses nothing

A modification lists the user columns of its table, and an engine that cannot redefine a column in
place drops the table and keeps just what is listed. `Complete` says that nothing is missing from
such a list at the moment when it is used, and every modification that a forced run applies has it,
as `Session.update_schema_rebuilds` says together with what SQLite makes of the list.
-/

namespace SchemaKeeper

namespace Dialect

/-- The texts of a rebuild: the columns are listed in full where the scratch table is created and,
by name, on both sides of the copy, and each indexed one of them has its index created again. -/
def rebuildSql (table : String) (columns : List Column) : List String :=
  let copied := ", ".intercalate (Identifier.reservedColumns ++ columns.map Column.name)
  [ "CREATE TABLE " ++ scratchName table ++ " (" ++ ", ".intercalate
      (sqlite.reservedDefinitions :: columns.map sqlite.columnDefinition ++ ["PRIMARY KEY (id)"])
      ++ ")",
    "INSERT INTO " ++ scratchName table ++ " (" ++ copied ++ ") SELECT " ++ copied ++ " FROM "
      ++ table,
    "DROP TABLE " ++ table,
    "ALTER TABLE " ++ scratchName table ++ " RENAME TO " ++ table ]
  ++ (columns.filter fun c => c.index.isIndexed).map fun c =>
    "CREATE " ++ (if c.index = .unique then "UNIQUE " else "") ++ "INDEX "
      ++ sqlite.indexName table c.name ++ " ON " ++ table ++ " (" ++ c.name ++ ")"

/-- A list between two further parts is a list of all of them. -/
theorem intercalate_between (first last : String) (parts : List String) :
    ", ".intercalate (first :: parts ++ [last]) =
      first ++ String.join (parts.map fun part => ", " ++ part) ++ ", " ++ last := by
  induction parts generalizing first with
  | nil => simp [String.intercalate_cons_cons]
  | cons part rest ih =>
      rw [List.cons_append, List.cons_append, String.intercalate_cons_cons, ← List.cons_append,
        ih part]
      simp [String.append_assoc]

theorem create_table_text_eq (table : String) (columns : List Column) :
    sqlite.createTableText table columns = "CREATE TABLE " ++ table ++ " (" ++ ", ".intercalate
      (sqlite.reservedDefinitions :: columns.map sqlite.columnDefinition ++ ["PRIMARY KEY (id)"])
      ++ ")" := by
  have htext : sqlite.createTableText table columns = "CREATE TABLE " ++ table ++ " ("
      ++ sqlite.reservedDefinitions
      ++ String.join (columns.map fun c => ", " ++ sqlite.columnDefinition c)
      ++ ", PRIMARY KEY (id))" := rfl
  rw [htext, intercalate_between, List.map_map]
  simp only [String.append_assoc]
  rfl

/-- The text of the statement that gives a column its index, if it is to have one. -/
theorem index_statement_text (table : String) (c : Column) :
    (indexStatement? .sqlite table c.name c.index).map (Ddl.text .sqlite) =
      if c.index.isIndexed then
        some ("CREATE " ++ (if c.index = .unique then "UNIQUE " else "") ++ "INDEX "
          ++ sqlite.indexName table c.name ++ " ON " ++ table ++ " (" ++ c.name ++ ")")
      else none := by
  unfold indexStatement?
  cases c.index <;> rfl

/-- SQLite rebuilds the table for a modification, whichever column is modified. -/
theorem modify_sql_eq (table : String) (column : Column) (columns : List Column) :
    sqlite.changeSql (.modifyColumn table column columns) = rebuildSql table columns := by
  have hindexes : (columns.filterMap fun c => indexStatement? .sqlite table c.name c.index).map
      (Ddl.text .sqlite) = (columns.filter fun c => c.index.isIndexed).map fun c =>
        "CREATE " ++ (if c.index = .unique then "UNIQUE " else "") ++ "INDEX "
          ++ sqlite.indexName table c.name ++ " ON " ++ table ++ " (" ++ c.name ++ ")" := by
    rw [List.map_filterMap, ← List.filterMap_eq_map, List.filterMap_filter]
    exact List.filterMap_congr fun c _ => index_statement_text table c
  calc sqlite.changeSql (.modifyColumn table column columns)
    _ = (rebuild table columns).map (Ddl.text .sqlite) := rfl
    _ = rebuildSql table columns := by
        rw [rebuild, List.map_append, hindexes, List.map_cons]
        exact congrArg (fun text => text :: _ ++ _) (create_table_text_eq _ _)

/-- The statement creates an index on the column. -/
def createsIndexOn (column : String) : Ddl → Bool
  | .createIndex _ _ c _ => c = column
  | _ => false

/-- Where names are distinct, a column is the only one of its name. -/
theorem filter_of_names_nodup {columns : List Column} {c : Column}
    (hnames : (columns.map Column.name).Nodup) (hc : c ∈ columns) :
    columns.filter (fun d => d.name = c.name) = [c] := by
  obtain ⟨before, after, rfl⟩ := List.append_of_mem hc
  rw [List.map_append, List.map_cons, List.nodup_middle, List.nodup_cons, ← List.map_append]
    at hnames
  have hothers : ∀ d ∈ before ++ after, ¬ decide (d.name = c.name) = true := fun d hd hname =>
    hnames.1 (of_decide_eq_true hname ▸ List.mem_map_of_mem hd)
  obtain ⟨hbefore, hafter⟩ := List.forall_mem_append.mp hothers
  exact List.filter_eq_cons_iff.mpr
    ⟨before, after, rfl, hbefore, decide_eq_true rfl, List.filter_eq_nil_iff.mpr hafter⟩

/-- A rebuild creates just the index on a listed column that the column is to have. -/
theorem rebuild_indexes {table : String} {columns : List Column} {c : Column}
    (hnames : (columns.map Column.name).Nodup) (hc : c ∈ columns) :
    (rebuild table columns).filter (createsIndexOn c.name) =
      (sqlite.indexStatement? table c.name c.index).toList := by
  -- The four statements before the indexes create none.
  have hfront : (rebuild table columns).filter (createsIndexOn c.name) =
      (columns.filterMap fun d => indexStatement? .sqlite table d.name d.index).filter
        (createsIndexOn c.name) := rfl
  have hcreates : ∀ d : Column, (sqlite.indexStatement? table d.name d.index).filter
      (createsIndexOn c.name) =
        if decide (d.name = c.name) then sqlite.indexStatement? table d.name d.index
        else none := by
    intro d
    unfold indexStatement?
    split
    · simp [createsIndexOn, Option.filter]
    · simp
  rw [hfront, List.filter_filterMap, List.filterMap_congr fun d _ => hcreates d,
    ← List.filterMap_filter, filter_of_names_nodup hnames hc, List.filterMap_cons,
    List.filterMap_nil]
  cases sqlite.indexStatement? table c.name c.index <;> rfl

end Dialect

namespace Synchronization

open Session

variable {σ : Type} {b : Backend σ} {s : Structure} {options : SyncOptions} {table : Table}
  {live : List LiveColumn} {declared column : Column} {columns : List Column}

/-- A modification of a table, of which `now` are the user columns at this moment, lists each of
them once: the modified one as declared but with the index that it has, the others as they are. -/
structure Complete (table : Table) (now : List LiveColumn) (column : Column)
    (columns : List Column) : Prop where
  names : (columns.map Column.name).Perm (now.map LiveColumn.name)
  once : (columns.map Column.name).Nodup
  unreserved : ∀ c ∈ columns, Identifier.isReserved c.name = false
  modified : column ∈ columns
  declared : ∃ declared ∈ table.columns, ∃ current ∈ now, current.name = declared.name ∧
    column = { declared with index := current.spec.index }
  others : ∀ c ∈ now, c.name ≠ column.name → c.spec ∈ columns

/-- The tracked columns with the modified one in its place are a complete list. -/
theorem complete_of_perm {now : List LiveColumn} {current : LiveColumn}
    (hdeclared : declared ∈ table.columns) (hnames : (live.map LiveColumn.name).Nodup)
    (hunreserved : ∀ c ∈ live, Identifier.isReserved c.name = false) (hcurrent : current ∈ live)
    (hname : current.name = declared.name)
    (hcolumn : column = { declared with index := current.spec.index })
    (hnow : (now.map LiveColumn.spec).Perm (live.map LiveColumn.spec)) :
    Complete table now column
      (Column.onNamed declared.name (fun _ => column) (live.map LiveColumn.spec)) := by
  have hlisted : (Column.onNamed declared.name (fun _ => column)
      (live.map LiveColumn.spec)).map Column.name = live.map LiveColumn.name := by
    rw [Column.on_named_names fun _ _ => by rw [hcolumn], List.map_map]
    rfl
  have hnow' := (names_perm hnow).trans (.of_eq (List.map_map.trans rfl))
  constructor
  · rw [hlisted]
    exact hnow'.symm
  · rwa [hlisted]
  · intro c hc
    obtain ⟨d, hd, hd'⟩ := List.mem_map.mp (hlisted ▸ List.mem_map_of_mem hc)
    rw [← hd']
    exact hunreserved d hd
  · exact List.mem_map.mpr ⟨current.spec, List.mem_map_of_mem hcurrent, if_pos hname⟩
  · obtain ⟨c, hc, hspec⟩ := List.mem_map.mp (hnow.mem_iff.mpr (List.mem_map_of_mem hcurrent))
    refine ⟨declared, hdeclared, c, hc, ?_, by rw [hspec, hcolumn]⟩
    rw [LiveColumn.name, hspec, ← hname, LiveColumn.name]
  · intro c hc hne
    refine List.mem_map.mpr ⟨c.spec, hnow.mem_iff.mp (List.mem_map_of_mem hc), if_neg ?_⟩
    rwa [hcolumn] at hne

/-- The record is not the one of a modification, or what it lists is complete at this moment. -/
def ListsAll (tables : List Table) (now : Structure) (record : ChangeRecord) : Prop :=
  ∀ name column columns, record.change = .modifyColumn name column columns →
    ∃ table ∈ tables, table.name = name ∧ ∃ live, now name = some live ∧
      Complete table live column columns

/-- A change is recorded at the moment at which it is begun, as its statements record nothing. -/
theorem apply_attests {good : Structure → ChangeRecord → Prop} {change : Change}
    (h : good s (.of b.dialect change (outcomeOf options change))) :
    Attests b s (apply b options change) good := by
  unfold apply
  have hexecuted : ∀ statements, Attests b s (executeAll b statements) good := fun statements =>
    Attests.of_unrecorded fun db => (execute_all_sent b statements db).unrecorded
  refine (hexecuted _).bind (execute_all_yields _) fun _ mid hmid => ?_
  subst hmid
  exact (Attests.note h).map _

section Stages

variable {tables : List Table}

/-- A change that is not a modification attests to nothing. -/
theorem other_attests {change : Change} (h : ∀ t c cs, change ≠ .modifyColumn t c cs) :
    Attests b s (apply b options change) (ListsAll tables) :=
  apply_attests fun t c cs hchange => absurd hchange (h t c cs)

theorem modify_attests {current : LiveColumn} {initial : Structure} (htable : table ∈ tables)
    (hdeclared : declared ∈ table.columns) (hnames : (live.map LiveColumn.name).Nodup)
    (hunreserved : ∀ c ∈ live, Identifier.isReserved c.name = false) (hcurrent : current ∈ live)
    (hname : current.name = declared.name)
    (hmirrors : Mirrors .forced table.name initial live s) :
    Attests b s (modify b .forced table.name declared current live) (ListsAll tables) := by
  have hspecs := map_spec_replace_first
    (fun c => { c with spec := { declared with index := current.spec.index } })
    (fun _ => { declared with index := current.spec.index }) hnames hcurrent hname rfl
  obtain ⟨now, hnow, hperm⟩ := hmirrors.engine rfl
  have happly : Attests b s (apply b .forced (.modifyColumn table.name
      { declared with index := current.spec.index } ((replaceFirst declared.name
        (fun c => { c with spec := { declared with index := current.spec.index } })
        live).map LiveColumn.spec))) (ListsAll tables) := by
    refine apply_attests fun t c cs hchange => ?_
    cases hchange
    rw [hspecs]
    exact ⟨table, htable, rfl, now, hnow,
      complete_of_perm hdeclared hnames hunreserved hcurrent hname rfl hperm⟩
  unfold modify
  refine happly.bind (apply_yields _) fun record mid _ => ?_
  split
  · exact .pure _
  · split
    · exact .pure _
    · exact .of_quiet ((Quiet.user_columns b table.name).bind fun _ => Quiet.pure _)

theorem add_index_attests (name : String) (declared : Column) (stays : Bool)
    (live : List LiveColumn) :
    Attests b s (addIndex b options name declared stays live) (ListsAll tables) := by
  unfold addIndex
  split
  · exact .pure _
  · split
    · exact ((Attests.note (by rintro _ _ _ ⟨⟩)).map _).map _
    · exact (other_attests (by rintro _ _ _ ⟨⟩)).map _

theorem sync_index_attests (name : String) (declared : Column) (live : List LiveColumn) :
    Attests b s (syncIndex b options name declared live) (ListsAll tables) := by
  cases hfind : live.find? fun c => c.name = declared.name with
  | none =>
      unfold syncIndex
      rw [hfind]
      exact .pure _
  | some current =>
      rw [sync_index_some hfind]
      split
      · exact .pure _
      · split
        · refine (other_attests (by rintro _ _ _ ⟨⟩)).bind (apply_yields _) fun _ _ _ => ?_
          exact (add_index_attests _ _ _ _).map _
        · exact add_index_attests name declared false live

variable {initial : Structure} {planned : List LiveColumn} {before : List Column}

/-- No tracked column is reserved. -/
theorem Tracks.unreserved (h : Tracks options table initial planned before live s)
    (hplanned : ∀ c ∈ planned, Identifier.isReserved c.name = false) :
    ∀ c ∈ live, Identifier.isReserved c.name = false := by
  intro c hc
  have hlayout := (names_perm h.columns).mem_iff.mp (List.mem_map_of_mem hc)
  rw [layout_names, List.map_map, List.mem_append] at hlayout
  rcases hlayout with hkept | hnew
  · obtain ⟨d, hd, hname⟩ := List.mem_map.mp hkept
    rw [← hname]
    exact hplanned d (mem_planned_of_kept hd)
  · simpa using (Bool.and_eq_true_iff.mp (List.mem_filter.mp hnew).2).1

theorem sync_column_attests (htable : table ∈ tables) (hclean : Identifier.IsClean table.name)
    (htracks : Tracks .forced table initial planned before live s)
    (hplanned : Settleable table planned) (hbefore : (before.map Column.name).Nodup)
    (hdeclared : declared ∈ table.columns) (after : String) :
    Attests b s (syncColumn b .forced table.name after declared live) (ListsAll tables) := by
  cases hfind : live.find? fun c => c.name = declared.name with
  | none =>
      rw [sync_column_none hfind]
      exact (other_attests (by rintro _ _ _ ⟨⟩)).map _
  | some current =>
      have hcurrent : current ∈ live := List.mem_of_find?_eq_some hfind
      have hname : current.name = declared.name := name_of_find LiveColumn.name hfind
      have hnames := htracks.names_nodup hplanned.names hbefore
      have hredefine : Attests b s (redefine b .forced table.name declared current live)
          (ListsAll tables) := by
        unfold redefine
        split
        · exact modify_attests htable hdeclared hnames (htracks.unreserved hplanned.unreserved)
            hcurrent hname htracks.mirrors
        · exact .pure _
      rw [sync_column_some hfind]
      refine hredefine.bind (redefine_yields hclean hnames hcurrent hname htracks.mirrors
        (.refl _)) fun p _ _ => ?_
      exact (sync_index_attests _ _ _).map _

theorem sync_columns_attests {rest : List Column} (hsplit : before ++ rest = table.columns)
    (htable : table ∈ tables) (hclean : Identifier.IsClean table.name)
    (htracks : Tracks .forced table initial planned before live s)
    (hplanned : Settleable table planned) (hcolumns : (table.columns.map Column.name).Nodup) :
    Attests b s (syncColumns b .forced table.name (place before) rest live)
      (ListsAll tables) := by
  -- On the columns that are left; what each yields is tracked for those behind it.
  induction rest generalizing before live s with
  | nil => exact .pure _
  | cons declared rest ih =>
      have hsplit' : (before ++ [declared]) ++ rest = table.columns := by
        rw [List.append_assoc, List.singleton_append, hsplit]
      rw [sync_columns_cons]
      cases hreserved : Identifier.isReserved declared.name with
      | true =>
          rw [if_pos rfl, ← place_snoc_reserved before hreserved]
          exact ih hsplit' (htracks.snoc_reserved hplanned.unreserved hreserved)
      | false =>
          have hbefore : ((before ++ [declared]).map Column.name).Nodup := by
            rw [← hsplit', List.map_append] at hcolumns
            exact hcolumns.of_append_left
          have hdeclared : declared ∈ table.columns := by
            rw [← hsplit]
            exact List.mem_append_right _ List.mem_cons_self
          have hbefore' : (before.map Column.name).Nodup := by
            rw [List.map_append] at hbefore
            exact hbefore.of_append_left
          rw [if_neg Bool.false_ne_true]
          refine (sync_column_attests htable hclean htracks hplanned hbefore' hdeclared _).bind
            (sync_column_yields htracks hclean hplanned.names hbefore hdeclared hreserved)
            fun p mid h => ?_
          rw [← place_snoc before hreserved]
          exact (ih hsplit' h.1).map _

/-- Columns that go are not modified. -/
theorem drop_all_attests (name : String) (doomed live : List LiveColumn) :
    Attests b s (dropAll b options name doomed live) (ListsAll tables) := by
  have hdrops : (dropAll b options name doomed live).Obeys fun _ events => ∀ event ∈ events,
      RecordsOnly (fun change => ∀ t c cs, change ≠ .modifyColumn t c cs) event :=
    drop_all_obeys (records_only_cumulative _)
      (fun _ _ _ _ _ => admits_records_only (by rintro _ _ _ ⟨⟩)) live
  exact Attests.of_recorded fun db record hrecord _ t c cs hchange =>
    absurd hchange (hdrops db _ hrecord record rfl t c cs)

theorem sync_table_attests {present : Bool} (hpresent : present = (s table.name).isSome)
    (htable : table ∈ tables) (hclean : Identifier.IsClean table.name)
    (hplanned : Settleable table ((s table.name).getD []))
    (hcolumns : (table.columns.map Column.name).Nodup) :
    Attests b s (syncTable b .forced table present) (ListsAll tables) := by
  have hensure : Attests b s (ensureTable b .forced table.name present) (ListsAll tables) := by
    unfold ensureTable
    split
    · exact .pure _
    · exact (other_attests (by rintro _ _ _ ⟨⟩)).map _
  rw [sync_table_eq]
  refine hensure.bind (ensure_table_yields hpresent) fun created mid h => ?_
  obtain ⟨hothers, hdry, hthere, -⟩ := h
  have hmirrors : Mirrors .forced table.name s ((s table.name).getD []) mid :=
    mirrors_of_ensured hothers hdry fun h => hthere (by rw [h, Bool.and_false])
  refine Attests.bind (live_columns_yields hclean hthere fun hwould => ?_)
    (.of_quiet (live_columns_quiet present)) fun live s₁ h => ?_
  · rw [Bool.and_eq_true] at hwould
    cases hwould.2
  obtain ⟨rfl, rfl⟩ := h
  refine (drop_all_attests _ _ _).bind (drop_stale_yields hplanned hmirrors) fun p s₂ h => ?_
  exact (sync_columns_attests (List.nil_append _) htable hclean h.1 hplanned hcolumns).map _

theorem sync_tables_attests {rest : List Table} {existing : List String} (h : Ready s rest)
    (hrest : ∀ table ∈ rest, table ∈ tables)
    (hexisting : ∀ table ∈ rest, existing.contains table.name = (s table.name).isSome) :
    Attests b s (syncTables b .forced rest existing) (ListsAll tables) := by
  induction rest generalizing existing s with
  | nil => exact .pure _
  | cons table rest ih =>
      have hclean := h.clean table List.mem_cons_self
      have hsettleable := h.settleable table List.mem_cons_self
      have hcolumns := h.columns table List.mem_cons_self
      have hpresent := hexisting table List.mem_cons_self
      rw [sync_tables_cons]
      refine (sync_table_attests hpresent (hrest table List.mem_cons_self) hclean hsettleable
        hcolumns).bind (sync_table_yields hpresent hclean hsettleable hcolumns)
        fun records mid hmid => ?_
      exact (ih (h.others hmid.1) (fun t ht => hrest t (List.mem_cons_of_mem _ ht))
        (h.listed hmid.1 hexisting)).map _

end Stages

/-- A declaration of a new text, a text that was a number, and a text with a unique index. -/
def rebuiltDocument : Json :=
  .object [("users", .object [
    ("mail", .object []),
    ("age", .object [("type", .text "TEXT")]),
    ("code", .object [("index", .text "unique")])])]

def rebuiltMail : Column := .ofType "mail" "VARCHAR(128)" true none .none

def rebuiltAge : Column := .ofType "age" "TEXT" true none .none

def rebuiltCode : Column := .ofType "code" "VARCHAR(128)" true none .unique

def rebuiltTable : Table := ⟨"users", [rebuiltMail, rebuiltAge, rebuiltCode]⟩

/-- The columns that stay, as they are before the run. -/
def rebuiltStanding : List LiveColumn :=
  [⟨rebuiltCode, some "by_code"⟩, ⟨.ofType "age" "INT" true none .none, none⟩]

def rebuiltBefore : List LiveColumn :=
  ⟨.ofType "old" "INT" true none .none, none⟩ :: rebuiltStanding

/-- The user columns when the rebuild begins: one was dropped and one was added. -/
def rebuiltBetween : List LiveColumn := rebuiltStanding ++ [⟨rebuiltMail, none⟩]

def rebuiltAfter : List LiveColumn :=
  [⟨rebuiltMail, none⟩, ⟨rebuiltCode, some "index_users_code"⟩, ⟨rebuiltAge, none⟩]

/-- An engine that describes the table before the run and after the rebuild. -/
def rebuiltHandle : Handle Script :=
  .start (some ⟨"localhost", none, "", "", "app"⟩) []
    { fetches := [.ok usersRows], describes := [.ok rebuiltBefore, .ok rebuiltAfter] }

theorem rebuilt_before_well_formed : WellFormed (.only "users" rebuiltBefore) := by
  intro table live h
  unfold Structure.only at h
  split at h
  · cases h
    refine ⟨by decide, fun c hc => ?_⟩
    simp only [rebuiltBefore, rebuiltStanding, List.mem_cons, List.not_mem_nil, or_false] at hc
    rcases hc with rfl | rfl | rfl
    all_goals
      refine ⟨by decide, by decide, ?_⟩
      rintro index ⟨⟩
    decide
  · cases h

/-- The record of the rebuild. -/
def rebuiltRecord : ChangeRecord :=
  .of .sqlite (.modifyColumn "users" rebuiltAge [rebuiltMail, rebuiltCode, rebuiltAge]) .applied

/-- The events before the record of the rebuild, when its statements have been executed. -/
def rebuiltEvents : List Event :=
  [.called (.connect ⟨"localhost", none, "", "", "app"⟩) .done,
    .called (.fetch "LIST TABLES") (.rows usersRows), .attempted "LIST TABLES" none,
    .called (.describe "users") (.columns rebuiltBefore),
    .attempted "LIST COLUMNS OF users" none,
    .called (.execute (.ddl (.dropColumn "users" "old"))) (.affected 0),
    .attempted "ALTER TABLE users DROP COLUMN old" none,
    .recorded (.of .sqlite (.dropColumn "users" "old" none) .applied),
    .called (.execute (.ddl (.addColumn "users" rebuiltMail none none))) (.affected 0),
    .attempted "ALTER TABLE users ADD COLUMN mail VARCHAR(128) NULL" none,
    .recorded (.of .sqlite (.addColumn "users" rebuiltMail "id") .applied)]
  ++ rebuiltRecord.statements.flatMap fun s =>
    [.called (.execute (.ddl s)) (.affected 0), .attempted (s.text .sqlite) none]

/-- What follows the record of the rebuild: the table is read again. -/
def rebuiltRest : List Event :=
  [.called (.describe "users") (.columns rebuiltAfter), .attempted "LIST COLUMNS OF users" none]

theorem rebuilt_trace :
    (Session.updateSchema (Script.backend .sqlite) ⟨[rebuiltTable]⟩ .forced).trace rebuiltHandle =
      rebuiltEvents ++ .recorded rebuiltRecord :: rebuiltRest := by
  decide +kernel

/-- Statements that are executed leave the structure as it is until their change is recorded. -/
theorem replays_executed {s : Structure} (statements : List Ddl) :
    b.Replays s (statements.flatMap fun d =>
      [.called (.execute (.ddl d)) (.affected 0), .attempted (d.text .sqlite) none]) s := by
  induction statements with
  | nil => exact .nil s
  | cons d rest ih => exact .cons (.executed _ _ _) (.cons (.attempted _ _) ih)

/-- The engine is faithful before the rebuild is recorded. -/
theorem rebuilt_events_replay : (Script.backend .sqlite).Replays (.only "users" rebuiltBefore)
    rebuiltEvents (.only "users" rebuiltBetween) := by
  have hdrop : (Change.dropColumn "users" "old" none).Effect
      (.only "users" rebuiltBefore) (.only "users" rebuiltStanding) :=
    Change.effect_only rfl (by decide +kernel)
  have hadd : (Change.addColumn "users" rebuiltMail "id").Effect
      (.only "users" rebuiltStanding) (.only "users" rebuiltBetween) :=
    Change.effect_only rfl (by decide +kernel)
  exact .cons (.connected _ _) <| .cons (.listed _ _ (users_listed _)) <|
    .cons (.attempted _ _) <| .cons (.described _ _ _ fun _ => users_described rfl) <|
    .cons (.attempted _ _) <| .cons (.executed _ _ _) <| .cons (.attempted _ _) <|
    .cons (.applied _ _ _ rfl hdrop) <| .cons (.executed _ _ _) <| .cons (.attempted _ _) <|
    .cons (.applied _ _ _ rfl hadd) (replays_executed _)

/-- The engine is faithful when the rebuild is recorded and afterwards. -/
theorem rebuilt_rest_replays : (Script.backend .sqlite).Replays (.only "users" rebuiltBetween)
    (.recorded rebuiltRecord :: rebuiltRest) (.only "users" rebuiltAfter) := by
  have hmodify : rebuiltRecord.change.Effect
      (.only "users" rebuiltBetween) (.only "users" rebuiltAfter) :=
    Change.effect_only rfl (by decide +kernel)
  exact .cons (.applied _ _ _ rfl hmodify) <|
    .cons (.described _ _ _ fun _ => users_described rfl) <| .cons (.attempted _ _) (.nil _)

end Synchronization

namespace Session

open Synchronization

variable {σ : Type}

/-- Every modification that a forced run applies lists the user columns that its table has at that
moment, whichever columns were dropped, added and changed before: each of them once, none that is
reserved, the modified one as declared under the index that it has, and the others as they are. From
such a list SQLite builds the new table, copies the rows and creates just the indexes of the listed
columns. -/
theorem update_schema_rebuilds (b : Backend σ) (document : Json) (schema : Schema)
    (initial now final : Structure) (db : Handle σ)
    (hschema : Schema.ofJson document = .ok schema)
    (htables : (schema.tables.map Table.name).Nodup)
    (hcolumns : ∀ table ∈ schema.tables, (table.columns.map Column.name).Nodup)
    (hinitial : WellFormed initial) (hready : db.CanConnect)
    (before after : List Event) (record : ChangeRecord) (name : String) (column : Column)
    (columns : List Column)
    (htrace : (updateSchema b schema .forced).trace db = before ++ .recorded record :: after)
    (hbefore : b.Replays initial before now)
    (hafter : b.Replays now (.recorded record :: after) final)
    (hchange : record.change = .modifyColumn name column columns) :
    (∃ table ∈ schema.tables, table.name = name ∧ ∃ live, now name = some live ∧
      Complete table live column columns) ∧
    Dialect.sqlite.changeSql record.change = Dialect.rebuildSql name columns ∧
    ∀ c ∈ columns, (Dialect.sqlite.statements record.change).filter
      (Dialect.createsIndexOn c.name) =
        (Dialect.sqlite.indexStatement? name c.name c.index).toList := by
  have hready' : Ready initial schema.tables :=
    ⟨htables, Schema.clean_of_of_json hschema, hcolumns, fun table _ => hinitial.settleable table⟩
  have hattests : Attests b initial (updateSchema b schema .forced) (ListsAll schema.tables) := by
    unfold updateSchema
    refine Attests.bind Yields.tables (.of_quiet (Quiet.tables b)) fun existing mid h => ?_
    obtain ⟨rfl, hexisting⟩ := h
    refine sync_tables_attests hready' (fun _ h => h) fun table _ => ?_
    rw [Bool.eq_iff_iff, List.contains_iff_mem]
    exact hexisting table.name
  have hwhole : b.Replays initial ((updateSchema b schema .forced).trace db) final := by
    rw [htrace]
    exact Backend.Replays.append_iff.mpr ⟨now, hbefore, hafter⟩
  obtain ⟨table, htable, hname, live, hlive, hcomplete⟩ :=
    hattests db final hready hwhole before record after now htrace hbefore hafter name column
      columns hchange
  refine ⟨⟨table, htable, hname, live, hlive, hcomplete⟩, ?_, fun c hc => ?_⟩
  · rw [hchange, Dialect.modify_sql_eq]
  · rw [hchange]
    exact Dialect.rebuild_indexes hcomplete.once hc

/-- The statement above has instances in which columns come and go before the rebuild, and an index
goes with the old table. -/
theorem users_run_rebuilds :
    Complete rebuiltTable rebuiltBetween rebuiltAge [rebuiltMail, rebuiltCode, rebuiltAge] ∧
      Dialect.sqlite.changeSql rebuiltRecord.change =
        Dialect.rebuildSql "users" [rebuiltMail, rebuiltCode, rebuiltAge] ∧
      (Dialect.sqlite.statements rebuiltRecord.change).filter (Dialect.createsIndexOn "code") =
        [.createIndex "index_users_code" "users" "code" true] := by
  obtain ⟨⟨table, htable, -, live, hlive, hcomplete⟩, hsql, hindexes⟩ :=
    update_schema_rebuilds (Script.backend .sqlite) rebuiltDocument ⟨[rebuiltTable]⟩
      (.only "users" rebuiltBefore) (.only "users" rebuiltBetween) (.only "users" rebuiltAfter)
      rebuiltHandle rfl (by decide) (by decide) rebuilt_before_well_formed ⟨_, .inl rfl⟩
      rebuiltEvents rebuiltRest rebuiltRecord "users" rebuiltAge
      [rebuiltMail, rebuiltCode, rebuiltAge] rebuilt_trace rebuilt_events_replay
      rebuilt_rest_replays rfl
  cases List.mem_singleton.mp htable
  cases hlive
  exact ⟨hcomplete, hsql, hindexes rebuiltCode (by decide)⟩

end Session

end SchemaKeeper

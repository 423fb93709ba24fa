import SchemaKeeper.Engine.Script
import SchemaKeeper.Proofs.Synchronization.Names

/-!
# Which indexes share a name

In SQLite the names of indexes are global, so that the dialect makes them from the names of table
and column, joined by an underscore. Underscores occur in these names as well, and points turn into
them: `Dialect.Confusable` says which pairs of table and column get one name, and
`Dialect.same_index_name_iff` that no others do. A synchronization creates the index on a column
under this name and drops it under this or the reported one, so that statements on the indexes of
two columns can only meet if the columns are confusable. `Session.confusable_indexes_collide` shows
a run in which they are.
-/

namespace SchemaKeeper

namespace Dialect

/-- A name as it stands in the names of indexes, where points are underscores. The letters of two
names are compared after folding. -/
def spelled (fold : Char → Char) (name : String) : List Char :=
  (Text.replaceChar '.' ['_'] name.toList).map fold

/-- Two pairs of table and column that come to the same once the names are joined. Either they are
spelled alike, or one table name goes on where the other one ends, with an underscore and the first
part of the other column name. -/
inductive Confusable (fold : Char → Char) (t c t' c' : String) : Prop where
  | alike (htable : spelled fold t = spelled fold t') (hcolumn : spelled fold c = spelled fold c')
  | left (w : List Char) (htable : spelled fold t' = spelled fold t ++ '_' :: w)
      (hcolumn : spelled fold c = w ++ '_' :: spelled fold c')
  | right (w : List Char) (htable : spelled fold t = spelled fold t' ++ '_' :: w)
      (hcolumn : spelled fold c' = w ++ '_' :: spelled fold c)

variable {fold : Char → Char} {t c t' c' : String}

/-- Two ways to read a text as joined at a mark. -/
theorem joined_eq_iff {α : Type} {mark : α} {x y x' y' : List α} :
    x ++ mark :: y = x' ++ mark :: y' ↔ (x = x' ∧ y = y') ∨
      (∃ w, x' = x ++ mark :: w ∧ y = w ++ mark :: y') ∨
      ∃ w, x = x' ++ mark :: w ∧ y' = w ++ mark :: y := by
  rw [List.append_eq_append_iff]
  constructor
  · rintro (⟨rest, hx, hy⟩ | ⟨rest, hx, hy⟩)
    · cases rest with
      | nil =>
          rw [List.append_nil] at hx
          exact .inl ⟨hx.symm, (List.cons.inj hy).2⟩
      | cons a w =>
          obtain ⟨rfl, hw⟩ := List.cons.inj hy
          exact .inr (.inl ⟨w, hx, hw⟩)
    · cases rest with
      | nil =>
          rw [List.append_nil] at hx
          exact .inl ⟨hx, (List.cons.inj hy).2.symm⟩
      | cons a w =>
          obtain ⟨rfl, hw⟩ := List.cons.inj hy
          exact .inr (.inr ⟨w, hx, hw⟩)
  · rintro (⟨rfl, rfl⟩ | ⟨w, rfl, rfl⟩ | ⟨w, rfl, rfl⟩)
    · exact .inl ⟨[], by simp, rfl⟩
    · exact .inl ⟨mark :: w, rfl, rfl⟩
    · exact .inr ⟨mark :: w, rfl, rfl⟩

theorem confusable_iff : Confusable fold t c t' c' ↔
    spelled fold t ++ '_' :: spelled fold c = spelled fold t' ++ '_' :: spelled fold c' := by
  rw [joined_eq_iff]
  constructor
  · rintro (⟨htable, hcolumn⟩ | ⟨w, htable, hcolumn⟩ | ⟨w, htable, hcolumn⟩)
    · exact .inl ⟨htable, hcolumn⟩
    · exact .inr (.inl ⟨w, htable, hcolumn⟩)
    · exact .inr (.inr ⟨w, htable, hcolumn⟩)
  · rintro (⟨htable, hcolumn⟩ | ⟨w, htable, hcolumn⟩ | ⟨w, htable, hcolumn⟩)
    · exact .alike htable hcolumn
    · exact .left w htable hcolumn
    · exact .right w htable hcolumn

/-- The name of an index is made of the spelled names. -/
theorem index_name_spelled (hfold : fold '_' = '_') (t c : String) :
    (sqlite.indexName t c).toList.map fold =
      spelled fold "index_" ++ (spelled fold t ++ '_' :: spelled fold c) := by
  simp [indexName, spelled, Text.replaceChar, hfold]

theorem folded_index_name_iff (hfold : fold '_' = '_') :
    (sqlite.indexName t c).toList.map fold = (sqlite.indexName t' c').toList.map fold ↔
      Confusable fold t c t' c' := by
  rw [index_name_spelled hfold, index_name_spelled hfold, List.append_cancel_left_eq,
    confusable_iff]

/-- Two pairs of table and column get the same index name just if they are confusable. -/
theorem index_name_eq_iff :
    sqlite.indexName t c = sqlite.indexName t' c' ↔ Confusable id t c t' c' := by
  rw [← folded_index_name_iff rfl, List.map_id, List.map_id, String.toList_inj]

/-- Two pairs of table and column get index names that an engine does not tell apart just if they
are confusable up to case. -/
theorem same_index_name_iff :
    Text.sameIgnoringCase (sqlite.indexName t c) (sqlite.indexName t' c') = true ↔
      Confusable Char.toLower t c t' c' := by
  rw [← folded_index_name_iff (by decide), Text.sameIgnoringCase, beq_iff_eq, Text.asciiLower,
    Text.asciiLower, String.ofList_inj]

/-- Where the spelled names of tables have no underscores, only pairs that are spelled alike are
confusable. -/
theorem Confusable.of_plain (h : Confusable fold t c t' c') (ht : '_' ∉ spelled fold t)
    (ht' : '_' ∉ spelled fold t') :
    spelled fold t = spelled fold t' ∧ spelled fold c = spelled fold c' := by
  cases h with
  | alike htable hcolumn => exact ⟨htable, hcolumn⟩
  | left w htable =>
      rw [htable] at ht'
      simp at ht'
  | right w htable =>
      rw [htable] at ht
      simp at ht

/-- Points are kept and so are the underscores that stand for them. -/
theorem filter_points_replaced (s : List Char) :
    (Text.replaceChar '.' ['_'] s).filter (fun ch => Identifier.IsWordChar ch) =
      Text.replaceChar '.' ['_'] (s.filter fun ch => Identifier.IsWordChar ch) := by
  have hmap : ∀ s, Text.replaceChar '.' ['_'] s =
      s.map fun ch => if ch = '.' then '_' else ch := by
    intro s
    rw [List.map_eq_flatMap]
    refine List.flatMap_congr fun ch _ => ?_
    split <;> rfl
  rw [hmap, hmap, List.filter_map]
  refine congrArg _ (List.filter_congr fun ch _ => ?_)
  by_cases hpoint : ch = '.'
  · rw [hpoint]
    decide
  · rw [Function.comp_apply, if_neg hpoint]

/-- Cleaning the name of an index comes to the same as cleaning the name of its column. -/
theorem cleaned_index_name {table : String} (column : String)
    (htable : Identifier.IsClean table) :
    Identifier.cleaned (sqlite.indexName table column) =
      sqlite.indexName table (Identifier.cleaned column) := by
  have hword : Identifier.IsClean "index_" := by decide
  have hunderscore : Identifier.IsClean "_" := by decide
  have hclean := (hword.append htable).append hunderscore
  have hprefix : (("index_" ++ table ++ "_").toList).filter
      (fun ch => Identifier.IsWordChar ch) = ("index_" ++ table ++ "_").toList :=
    List.filter_eq_self.mpr fun ch hch =>
      decide_eq_true ((Identifier.is_name_char_iff ch).mp (hclean.2 ch hch))
  have hwhole : ∀ column, ("index_" ++ table ++ "_" ++ column).toList =
      ("index_" ++ table ++ "_").toList ++ column.toList := fun _ => String.toList_append
  unfold Identifier.cleaned indexName
  dsimp only
  rw [String.toList_ofList, filter_points_replaced, hwhole, List.filter_append, hprefix, hwhole,
    String.toList_ofList]

end Dialect

namespace Change

/-- The change drops the index of this name, for a column of this name. -/
def DropsIndex (column name : String) : Change → Prop
  | .dropIndex _ c n => c = column ∧ n = name
  | .dropColumn _ c n => c = column ∧ n = some name
  | _ => False

/-- What a statement of a change does to indexes: it creates one under the name for its table and
column, or drops one that the change drops, or neither. -/
inductive IndexUse (d : Dialect) (change : Change) : Ddl → Prop where
  | created (column : String) (unique : Bool) :
      IndexUse d change
        (.createIndex (d.indexName change.table column) change.table column unique)
  | dropped (column name : String) (h : change.DropsIndex column name) :
      IndexUse d change (.dropIndex name change.table)
  | neither {s : Ddl} (hcreate : ∀ n t c unique, s ≠ .createIndex n t c unique)
      (hdrop : ∀ n t, s ≠ .dropIndex n t) : IndexUse d change s

theorem index_use_of_index_statement {d : Dialect} {change : Change} {column : String}
    {kind : IndexKind} {s : Ddl} (h : s ∈ d.indexStatement? change.table column kind) :
    IndexUse d change s := by
  unfold Dialect.indexStatement? at h
  split at h
  · cases h
    exact .created column _
  · cases h

theorem index_use {d : Dialect} {change : Change} {s : Ddl} (h : s ∈ d.statements change) :
    IndexUse d change s := by
  cases change with
  | createTable table =>
      cases List.mem_singleton.mp h
      exact .neither nofun nofun
  | addColumn table column after =>
      cases d with
      | mysql =>
          cases List.mem_singleton.mp h
          exact .neither nofun nofun
      | sqlite =>
          rcases List.mem_cons.mp h with rfl | h
          · exact .neither nofun nofun
          · exact index_use_of_index_statement (Option.mem_toList.mp h)
  | modifyColumn table column columns =>
      cases d with
      | mysql =>
          cases List.mem_singleton.mp h
          exact .neither nofun nofun
      | sqlite =>
          rcases List.mem_append.mp h with h | h
          · simp only [List.mem_cons, List.not_mem_nil, or_false] at h
            rcases h with rfl | rfl | rfl | rfl <;> exact .neither nofun nofun
          · obtain ⟨listed, -, h⟩ := List.mem_filterMap.mp h
            exact index_use_of_index_statement h
  | dropColumn table column index =>
      cases d with
      | mysql =>
          cases List.mem_singleton.mp h
          exact .neither nofun nofun
      | sqlite =>
          rcases List.mem_append.mp h with h | h
          · obtain ⟨name, rfl, rfl⟩ := Option.map_eq_some_iff.mp (Option.mem_toList.mp h)
            exact .dropped column name ⟨rfl, rfl⟩
          · cases List.mem_singleton.mp h
            exact .neither nofun nofun
  | addIndex table column kind => exact index_use_of_index_statement (Option.mem_toList.mp h)
  | dropIndex table column name =>
      cases List.mem_singleton.mp h
      exact .dropped column name ⟨rfl, rfl⟩

end Change

/-- The statement was sent. -/
def Event.Sends (s : Ddl) (events : List Event) : Prop := .ddl s ∈ Event.commands events

instance (s : Ddl) (events : List Event) : Decidable (Event.Sends s events) :=
  inferInstanceAs (Decidable (_ ∈ _))

/-- What was sent was answered. -/
theorem Event.Sends.called {s : Ddl} {events : List Event} (h : Event.Sends s events) :
    ∃ reply, .called (.execute (.ddl s)) reply ∈ events := by
  obtain ⟨event, hevent, hcommand⟩ := List.mem_filterMap.mp h
  split at hcommand
  · cases hcommand
    exact ⟨_, hevent⟩
  · cases hcommand

namespace Synchronization

open Session

variable {σ : Type} {b : Backend σ} {d : Dialect} {options : SyncOptions} {tables : List Table}
  {table : Table} {t : String} {live : List LiveColumn} {past : List Event}

/-- A table of this name declares a column of this name. -/
def Declares (tables : List Table) (t c : String) : Prop :=
  ∃ table ∈ tables, table.name = t ∧ c ∈ table.columns.map Column.name

theorem Declares.table_mem {c : String} (h : Declares tables t c) : t ∈ tables.map Table.name := by
  obtain ⟨table, htable, rfl, -⟩ := h
  exact List.mem_map_of_mem htable

/-- The names of an index on a column, as far as is known of them: the one that the dialect makes
for a declared column, the one that the engine reported, and what cleaning left of this one where it
also cleaned the name of the column. -/
inductive IndexOf (d : Dialect) (tables : List Table) (past : List Event) (t c : String) :
    String → Prop where
  | own (hdeclared : Declares tables t c) : IndexOf d tables past t c (d.indexName t c)
  | reported (column : LiveColumn) (name : String) (hreports : Event.Reports t column past)
      (hcolumn : column.name = c) (hname : column.indexName = some name) :
      IndexOf d tables past t c name
  | cleaned (column : LiveColumn) (raw name : String) (hreports : Event.Reports t column past)
      (hcolumn : Identifier.sanitize column.name = .ok c) (hraw : column.indexName = some raw)
      (hname : Identifier.sanitize raw = .ok name) : IndexOf d tables past t c name

theorem IndexOf.lasting (d : Dialect) (tables : List Table) (t c name : String) :
    Lasting fun past => IndexOf d tables past t c name := by
  intro past events h
  cases h with
  | own hdeclared => exact .own hdeclared
  | reported column _ hreports hcolumn hname =>
      exact .reported column name (hreports.append events) hcolumn hname
  | cleaned column raw _ hreports hcolumn hraw hname =>
      exact .cleaned column raw name (hreports.append events) hcolumn hraw hname

/-- A statement touches an index only for a column of a declared table: one that it creates has the
dialect's name, and one that it drops a name of the index on this column. -/
structure Attributed (d : Dialect) (tables : List Table) (s : Ddl) (past : List Event) :
    Prop where
  created : ∀ n t c unique, s = .createIndex n t c unique →
    t ∈ tables.map Table.name ∧ n = d.indexName t c
  dropped : ∀ n t, s = .dropIndex n t →
    t ∈ tables.map Table.name ∧ ∃ c, IndexOf d tables past t c n

theorem attributed_lasting (d : Dialect) (tables : List Table) (s : Ddl) :
    Lasting (Attributed d tables s) := by
  intro past events h
  refine ⟨h.created, fun n t hs => ?_⟩
  obtain ⟨ht, c, hindex⟩ := h.dropped n t hs
  exact ⟨ht, c, IndexOf.lasting d tables t c n past events hindex⟩

/-- The statements of a change that drops known indexes only are attributed. -/
theorem attributed_of_change {change : Change} (htable : change.table ∈ tables.map Table.name)
    (h : ∀ c n, change.DropsIndex c n → IndexOf d tables past change.table c n) :
    ∀ s ∈ d.statements change, Attributed d tables s past := by
  intro s hs
  cases Change.index_use hs with
  | created column unique =>
      refine ⟨?_, nofun⟩
      rintro _ _ _ _ ⟨⟩
      exact ⟨htable, rfl⟩
  | dropped column name hdrops =>
      refine ⟨nofun, ?_⟩
      rintro _ _ ⟨⟩
      exact ⟨htable, column, h column name hdrops⟩
  | neither hcreate hdrop =>
      exact ⟨fun n t c unique hs => absurd hs (hcreate n t c unique),
        fun n t hs => absurd hs (hdrop n t)⟩

/-- The index of each live column is known under the name that it has there. -/
def IndexesKnown (d : Dialect) (tables : List Table) (t : String) (live : List LiveColumn)
    (past : List Event) : Prop :=
  ∀ column ∈ live, ∀ name, column.indexName = some name →
    IndexOf d tables past t column.name name

theorem indexes_known_lasting (d : Dialect) (tables : List Table) (t : String)
    (live : List LiveColumn) : Lasting (IndexesKnown d tables t live) :=
  fun past events h column hcolumn name hname =>
    IndexOf.lasting d tables t _ name past events (h column hcolumn name hname)

/-- Columns that were read have their reported indexes. -/
theorem indexes_known_of_reports {events : List Event}
    (h : ∀ column ∈ live, Event.Reports t column events) :
    IndexesKnown d tables t live (past ++ events) := fun column hcolumn name hname =>
  .reported column name ((h column hcolumn).mono (List.subset_append_right _ _)) rfl hname

/-- What was sent touches indexes only for columns of declared tables. -/
abbrev IndexesAttributed (d : Dialect) (tables : List Table) : List Event → Prop :=
  SentOnly (Attributed d tables)

/-- A change is dealt with and recorded, and what it sends is attributed. -/
theorem apply_attributes {p : List Event → Prop} (hp : Lasting p) {change : Change}
    (htable : change.table ∈ tables.map Table.name)
    (h : ∀ past, p past → ∀ c n, change.DropsIndex c n →
      IndexOf b.dialect tables past change.table c n) :
    Upholds (IndexesAttributed b.dialect tables) p (apply b options change)
      fun _ past => p past := by
  intro past hsent hpast db
  obtain ⟨hall, hrecord⟩ := apply_sends (attributed_lasting b.dialect tables) b options hp
    (fun past hpast => attributed_of_change htable (h past hpast)) past hsent hpast db
  exact ⟨hall, fun record hrun => (hrecord record hrun).2.2⟩

/-- Holding a change back sends nothing. -/
theorem skip_attributes (reason : SkipReason) (change : Change) {p : List Event → Prop}
    (hp : Lasting p) :
    Upholds (IndexesAttributed b.dialect tables) p (skip b reason change) fun _ past => p past := by
  intro past hsent hpast db
  have hquiet : Event.commands ((skip b reason change).trace db) = [] := by
    unfold skip
    rw [note_events]
    rfl
  exact ⟨hsent.quiet (attributed_lasting b.dialect tables) hquiet, fun _ _ => hp _ _ hpast⟩

/-- The index that goes with a dropped column is its reported one, under its cleaned name. -/
theorem dropped_index {column : LiveColumn} {change : Change} (h : dropOf t column = .ok change) :
    change.table = t ∧ ∀ c n, change.DropsIndex c n → Identifier.sanitize column.name = .ok c ∧
      ∃ raw, column.indexName = some raw ∧ Identifier.sanitize raw = .ok n := by
  obtain ⟨name, index, hname, hindex, rfl⟩ := drop_of_eq h
  refine ⟨rfl, ?_⟩
  rintro _ n ⟨rfl, rfl⟩
  exact ⟨hname, hindex n rfl⟩

section Column

variable {declared : Column} (hdeclared : Declares tables t declared.name)

include hdeclared

/-- Where a definition changes, the index of the column stays, or is known as it was read. -/
theorem redefine_attributes (current : LiveColumn) :
    Upholds (IndexesAttributed b.dialect tables) (IndexesKnown b.dialect tables t live)
      (redefine b options t declared current live)
      fun p past => IndexesKnown b.dialect tables t p.1 past := by
  unfold redefine
  split
  · unfold modify
    refine (apply_attributes (indexes_known_lasting _ _ _ _) ?_ ?_).bind fun record => ?_
    · exact hdeclared.table_mem
    · exact fun _ _ _ _ hdrops => hdrops.elim
    split
    · exact .pure fun _ h => h
    · split
      · refine .pure fun past h => forall_mem_replace_first h fun old hold name hname => ?_
        have hold' := name_of_find LiveColumn.name hold
        have hindex := h old (List.mem_of_find?_eq_some hold) name hname
        rw [hold'] at hindex
        exact hindex
      · exact (user_columns_send (attributed_lasting b.dialect tables) t
          fun _ _ _ _ hreports => indexes_known_of_reports hreports).map fun _ _ h => h
  · exact .pure fun _ h => h

theorem add_index_attributes (kept : Bool) :
    Upholds (IndexesAttributed b.dialect tables) (IndexesKnown b.dialect tables t live)
      (addIndex b options t declared kept live)
      fun p past => IndexesKnown b.dialect tables t p.1 past := by
  unfold addIndex
  split
  · exact .pure fun _ h => h
  · split
    · exact (skip_attributes _ _ (indexes_known_lasting _ _ _ _)).map fun _ _ h => h
    · refine (apply_attributes (indexes_known_lasting _ _ _ _) ?_ ?_).map fun record past h => ?_
      · exact hdeclared.table_mem
      · exact fun _ _ _ _ hdrops => hdrops.elim
      · refine forall_mem_replace_first h fun old hold name hname => ?_
        cases hname
        have hold' : old.spec.name = declared.name := name_of_find LiveColumn.name hold
        change IndexOf _ _ _ _ old.spec.name _
        rw [hold']
        exact .own hdeclared

theorem sync_index_attributes :
    Upholds (IndexesAttributed b.dialect tables) (IndexesKnown b.dialect tables t live)
      (syncIndex b options t declared live)
      fun p past => IndexesKnown b.dialect tables t p.1 past := by
  cases hfind : live.find? fun c => c.name = declared.name with
  | none =>
      unfold syncIndex
      rw [hfind]
      exact .pure fun _ h => h
  | some current =>
      have hcurrent := name_of_find LiveColumn.name hfind
      have hmem := List.mem_of_find?_eq_some hfind
      rw [sync_index_some hfind]
      split
      · exact .pure fun _ h => h
      · split
        · refine (apply_attributes (indexes_known_lasting _ _ _ _) ?_ ?_).bind fun record => ?_
          · exact hdeclared.table_mem
          · rintro past hknown _ _ ⟨rfl, rfl⟩
            cases hname : current.indexName with
            | none => exact .own hdeclared
            | some name => exact hcurrent ▸ hknown current hmem name hname
          · refine ((add_index_attributes hdeclared _).mono fun past h => ?_).map
              fun _ _ h => h
            split
            · exact h
            · exact forall_mem_replace_first h fun _ _ _ hname => nomatch hname
        · exact add_index_attributes hdeclared false

theorem sync_column_attributes (after : String) :
    Upholds (IndexesAttributed b.dialect tables) (IndexesKnown b.dialect tables t live)
      (syncColumn b options t after declared live)
      fun p past => IndexesKnown b.dialect tables t p.1 past := by
  cases hfind : live.find? fun c => c.name = declared.name with
  | none =>
      rw [sync_column_none hfind]
      refine (apply_attributes (indexes_known_lasting _ _ _ _) ?_ ?_).map fun record past h => ?_
      · exact hdeclared.table_mem
      · exact fun _ _ _ _ hdrops => hdrops.elim
      · intro column hcolumn name hname
        rcases List.mem_cons.mp ((insert_after_perm after _ live).mem_iff.mp hcolumn) with rfl | hc
        · unfold added at hname
          split at hname
          · cases hname
            exact .own hdeclared
          · cases hname
        · exact h column hc name hname
  | some current =>
      rw [sync_column_some hfind]
      refine (redefine_attributes hdeclared current).bind fun p => ?_
      exact (sync_index_attributes hdeclared).map fun _ _ h => h

end Column

/-- Bringing columns about touches only their indexes and those of reported columns. -/
theorem sync_columns_attribute {columns : List Column}
    (h : ∀ declared ∈ columns, Declares tables t declared.name) (after : String)
    (live : List LiveColumn) :
    Upholds (IndexesAttributed b.dialect tables) (IndexesKnown b.dialect tables t live)
      (syncColumns b options t after columns live) fun _ _ => True := by
  induction columns generalizing after live with
  | nil => exact .pure fun _ _ => trivial
  | cons declared rest ih =>
      obtain ⟨hdeclared, hrest⟩ := List.forall_mem_cons.mp h
      rw [sync_columns_cons]
      split
      · exact ih hrest after live
      · refine (sync_column_attributes hdeclared after).bind fun p => ?_
        exact (ih hrest declared.name p.1).map fun _ _ h => h

/-- Columns are dropped with their reported indexes, under cleaned names. -/
theorem drop_all_attributes (htable : t ∈ tables.map Table.name)
    (doomed live : List LiveColumn) :
    Upholds (IndexesAttributed b.dialect tables)
      (fun past => IndexesKnown b.dialect tables t live past ∧
        ∀ column ∈ doomed, Event.Reports t column past)
      (dropAll b options t doomed live) fun p past => IndexesKnown b.dialect tables t p.1 past := by
  have hlasting : ∀ doomed live : List LiveColumn, Lasting fun past =>
      IndexesKnown b.dialect tables t live past ∧
        ∀ column ∈ doomed, Event.Reports t column past :=
    fun doomed live past events h => ⟨indexes_known_lasting _ _ _ _ _ _ h.1,
      fun column hcolumn => (h.2 column hcolumn).append events⟩
  induction doomed generalizing live with
  | nil => exact .pure fun _ h => h.1
  | cons column rest ih =>
      rw [drop_all_cons]
      refine .built_bind fun change hchange => ?_
      obtain ⟨hchangeTable, hdrops⟩ := dropped_index hchange
      refine (apply_attributes (hlasting _ live) (hchangeTable ▸ htable) ?_).bind
        fun record => ?_
      · rintro past ⟨-, hreports⟩ c n hdropped
        obtain ⟨hname, raw, hraw, hindex⟩ := hdrops c n hdropped
        rw [hchangeTable]
        exact .cleaned column raw n (hreports column List.mem_cons_self) hname hraw hindex
      · refine ((ih _).mono fun past h => ⟨?_, fun c hc => h.2 c (List.mem_cons_of_mem _ hc)⟩).map
          fun _ _ h => h
        split
        · exact h.1
        · exact fun c hc => h.1 c (List.mem_of_mem_filter hc)

/-- Bringing a table about touches only indexes on its columns. -/
theorem sync_table_attributes (htable : table ∈ tables) (present : Bool) :
    Upholds (IndexesAttributed b.dialect tables) (fun _ => True)
      (syncTable b options table present) fun _ _ => True := by
  have hname : table.name ∈ tables.map Table.name := List.mem_map_of_mem htable
  have hdeclares : ∀ declared ∈ table.columns, Declares tables table.name declared.name :=
    fun declared hdeclared => ⟨table, htable, rfl, List.mem_map_of_mem hdeclared⟩
  have hcreating : Upholds (IndexesAttributed b.dialect tables) (fun _ => True)
      (ensureTable b options table.name present) fun _ _ => True := by
    unfold ensureTable
    split
    · exact .pure fun _ h => h
    · refine (apply_attributes (fun _ _ h => h) ?_ ?_).map fun _ _ h => h
      · exact hname
      · exact fun _ _ _ _ hdrops => hdrops.elim
  have hreading : Upholds (IndexesAttributed b.dialect tables) (fun _ => True)
      (liveColumns b options table.name present)
      fun live past => ∀ column ∈ live, Event.Reports table.name column past := by
    unfold liveColumns
    split
    · exact .pure fun _ _ _ hcolumn => nomatch hcolumn
    · exact user_columns_send (attributed_lasting b.dialect tables) table.name
        fun past events live _ h column hcolumn =>
          (h column hcolumn).mono (List.subset_append_right _ _)
  rw [sync_table_eq]
  refine hcreating.bind fun created => hreading.bind fun live => ?_
  refine ((drop_all_attributes hname (stale table live) live).mono fun past h => ⟨?_, ?_⟩).bind
    fun p => ?_
  · exact fun column hcolumn name hindex =>
      .reported column name (h column hcolumn) rfl hindex
  · exact fun column hcolumn => h column (List.mem_of_mem_filter hcolumn)
  · exact (sync_columns_attribute hdeclares "id" p.1).map fun _ _ h => h

theorem sync_tables_attribute {rest : List Table} (hrest : rest ⊆ tables)
    (existing : List String) :
    Upholds (IndexesAttributed b.dialect tables) (fun _ => True)
      (syncTables b options rest existing) fun _ _ => True := by
  induction rest generalizing existing with
  | nil => exact .pure fun _ h => h
  | cons table rest ih =>
      obtain ⟨htable, hrest⟩ := List.cons_subset.mp hrest
      rw [sync_tables_cons]
      exact (sync_table_attributes htable _).bind fun records => (ih hrest _).map fun _ _ h => h

/-- The engine reports the indexes on the columns of a table under the names that the dialect makes
for them. -/
def OwnIndexes (t : String) (events : List Event) : Prop :=
  ∀ column, Event.Reports t column events → ∀ name, column.indexName = some name →
    name = Dialect.sqlite.indexName t column.name

/-- If the engine reports such names, then an index has no other one. -/
theorem IndexOf.own_name {c name : String} (h : IndexOf .sqlite tables past t c name)
    (ht : Identifier.IsClean t) (hown : OwnIndexes t past) :
    name = Dialect.sqlite.indexName t c := by
  cases h with
  | own => rfl
  | reported column _ hreports hcolumn hname =>
      rw [hown column hreports name hname, hcolumn]
  | cleaned column raw _ hreports hcolumn hraw hname =>
      rw [(Identifier.sanitize_ok_iff.mp hname).2, hown column hreports raw hraw,
        Dialect.cleaned_index_name _ ht, (Identifier.sanitize_ok_iff.mp hcolumn).2]

/-- The statements on indexes keep to the columns that they are for. An index is created under the
name for its column, so that two of these names clash only for confusable columns. An index is
dropped under a name of the index on a declared or reported column, and as long as the engine
reports the names that the dialect makes, this is the name for another column only if the two are
confusable. -/
structure KeptApart (tables : List Table) (events : List Event) : Prop where
  created : ∀ n t c unique, Event.Sends (.createIndex n t c unique) events →
    t ∈ tables.map Table.name ∧ n = Dialect.sqlite.indexName t c
  clash : ∀ n t c unique n' t' c' unique', Event.Sends (.createIndex n t c unique) events →
    Event.Sends (.createIndex n' t' c' unique') events → Text.sameIgnoringCase n n' = true →
    Dialect.Confusable Char.toLower t c t' c'
  dropped : ∀ n t, Event.Sends (.dropIndex n t) events → t ∈ tables.map Table.name ∧
    ∃ c, IndexOf .sqlite tables events t c n ∧
      (Identifier.IsClean t → OwnIndexes t events → ∀ t' c',
        Text.sameIgnoringCase n (Dialect.sqlite.indexName t' c') = true →
        Dialect.Confusable Char.toLower t c t' c')

theorem kept_apart_of_attributed {events : List Event}
    (h : IndexesAttributed .sqlite tables events) : KeptApart tables events := by
  have hcreated : ∀ n t c unique, Event.Sends (.createIndex n t c unique) events →
      t ∈ tables.map Table.name ∧ n = Dialect.sqlite.indexName t c := by
    intro n t c unique hsends
    obtain ⟨reply, hsent⟩ := hsends.called
    exact (h _ reply hsent).created n t c unique rfl
  refine ⟨hcreated, ?_, ?_⟩
  · intro n t c unique n' t' c' unique' hsends hsends' hsame
    obtain ⟨-, rfl⟩ := hcreated n t c unique hsends
    obtain ⟨-, rfl⟩ := hcreated n' t' c' unique' hsends'
    exact Dialect.same_index_name_iff.mp hsame
  · intro n t hsends
    obtain ⟨reply, hsent⟩ := hsends.called
    obtain ⟨ht, c, hindex⟩ := (h _ reply hsent).dropped n t rfl
    refine ⟨ht, c, hindex, fun hclean hown t' c' hsame => ?_⟩
    rw [hindex.own_name hclean hown] at hsame
    exact Dialect.same_index_name_iff.mp hsame

end Synchronization

namespace Session

open Synchronization

variable {σ : Type}

/-- Index names of SQLite are shared just by confusable pairs of table and column, be it literally
or up to case. Whatever the engine answers, a synchronization creates and drops indexes for columns
of declared tables only, and its statements on the indexes of two columns meet in a name only if
the columns are confusable. -/
theorem update_schema_indexes (b : Backend σ) (hb : b.dialect = .sqlite) (schema : Schema)
    (options : SyncOptions) (db : Handle σ) :
    (∀ t c t' c',
      (Dialect.sqlite.indexName t c = Dialect.sqlite.indexName t' c' ↔
        Dialect.Confusable id t c t' c') ∧
      (Text.sameIgnoringCase (Dialect.sqlite.indexName t c) (Dialect.sqlite.indexName t' c') =
          true ↔
        Dialect.Confusable Char.toLower t c t' c')) ∧
    KeptApart schema.tables ((updateSchema b schema options).trace db) := by
  refine ⟨fun t c t' c' => ⟨Dialect.index_name_eq_iff, Dialect.same_index_name_iff⟩, ?_⟩
  have hlisting : Upholds (IndexesAttributed b.dialect schema.tables) (fun _ => True)
      (Session.tables b) fun _ _ => True :=
    fun past hsent _ db => ⟨hsent.quiet (attributed_lasting _ _) (Quiet.tables b db).2,
      fun _ _ => trivial⟩
  have hwhole : Upholds (IndexesAttributed b.dialect schema.tables) (fun _ => True)
      (updateSchema b schema options) fun _ _ => True :=
    hlisting.bind fun existing => sync_tables_attribute (List.Subset.refl _) existing
  have hempty : IndexesAttributed b.dialect schema.tables [] := fun _ _ h => nomatch h
  have hattributed := (hwhole [] hempty trivial db).1
  rw [hb] at hattributed
  exact kept_apart_of_attributed hattributed

/-- Two tables with an indexed column each. The names of the tables have no underscores. -/
def plainSchema : Schema :=
  ⟨[⟨"users", [.ofType "e_mail" "TEXT" true none .unique]⟩,
    ⟨"posts", [.ofType "by.whom" "TEXT" true none .nonUnique]⟩]⟩

/-- The first table is there, with an index of the other kind. -/
def plainHandle : Handle Script :=
  .start (some ⟨"localhost", none, "user", "secret", "db"⟩) []
    { fetches := [.ok [⟨[("name", some (.text "users"))]⟩]]
      describes := [.ok [⟨.ofType "e_mail" "TEXT" true none .nonUnique,
        some "index_users_e_mail"⟩]] }

/-- The statement above speaks of runs that replace one index and create another: here the two
columns are not confusable. -/
theorem plain_indexes_kept_apart :
    (Script.backend .sqlite).dialect = .sqlite ∧
    KeptApart plainSchema.tables
      ((updateSchema (Script.backend .sqlite) plainSchema .forced).trace plainHandle) ∧
    (Event.Sends (.dropIndex "index_users_e_mail" "users")
        ((updateSchema (Script.backend .sqlite) plainSchema .forced).trace plainHandle) ∧
      Event.Sends (.createIndex "index_users_e_mail" "users" "e_mail" true)
        ((updateSchema (Script.backend .sqlite) plainSchema .forced).trace plainHandle) ∧
      Event.Sends (.createIndex "index_posts_by_whom" "posts" "by.whom" false)
        ((updateSchema (Script.backend .sqlite) plainSchema .forced).trace plainHandle)) ∧
    ¬ Dialect.Confusable Char.toLower "users" "e_mail" "posts" "by.whom" := by
  have hkept := update_schema_indexes (Script.backend .sqlite) rfl plainSchema .forced plainHandle
  refine ⟨rfl, hkept.2, by decide +kernel, fun h => ?_⟩
  exact absurd (h.of_plain (by decide) (by decide)).1 (by decide)

/-- A table and a column with an underscore each, in different places. -/
def straddlingDocument : Json :=
  .object [("a_b", .object [("c", .object [("index", .bool true)])]),
    ("a", .object [("b_c", .object [("index", .bool true)])])]

def straddlingSchema : Schema :=
  ⟨[⟨"a_b", [.ofType "c" Column.defaultEngineType true none .nonUnique]⟩,
    ⟨"a", [.ofType "b_c" Column.defaultEngineType true none .nonUnique]⟩]⟩

/-- An empty database. -/
def emptyHandle : Handle Script :=
  .start (some ⟨"localhost", none, "user", "secret", "db"⟩) [] {}

/-- Two different columns of a schema with distinct names can have one index name, under which both
of their indexes are created. -/
theorem confusable_indexes_collide :
    Schema.ofJson straddlingDocument = .ok straddlingSchema ∧
    (straddlingSchema.tables.map Table.name).Nodup ∧
    (∀ table ∈ straddlingSchema.tables, (table.columns.map Column.name).Nodup) ∧
    Dialect.sqlite.indexName "a_b" "c" = Dialect.sqlite.indexName "a" "b_c" ∧
    Event.Sends (.createIndex "index_a_b_c" "a_b" "c" false)
      ((updateSchema (Script.backend .sqlite) straddlingSchema .forced).trace emptyHandle) ∧
    Event.Sends (.createIndex "index_a_b_c" "a" "b_c" false)
      ((updateSchema (Script.backend .sqlite) straddlingSchema .forced).trace emptyHandle) := by
  refine ⟨rfl, by decide, by decide, by decide, ?_⟩
  decide +kernel

end Session

end SchemaKeeper

import SchemaKeeper.Change.Ddl

/-!
# Names in definition statements

The text of a definition statement is put together from pieces: fixed words, names, types of columns
and defaults. `Ddl.pieces` takes it apart, so that one can speak of the names that are written into
a statement, and `Ddl.text_eq_join` puts it together again. `Change.statement_names` says which
names a change can write into its statements: its own, those of indexes and scratch tables that are
made from them, and those of the reserved columns.
-/

namespace SchemaKeeper

namespace Ddl

/-- A piece of the text of a definition statement. -/
inductive Piece where
  /-- Fixed words and marks. -/
  | words (s : String)
  /-- The name of a table, a column or an index. -/
  | name (s : String)
  /-- The type of a column, in its own words. -/
  | type (s : String)
  /-- The literal for the default of a column. -/
  | literal (v : Scalar)
  deriving DecidableEq, Repr

/-- The name that a piece is. -/
def Piece.name? : Piece → Option String
  | .name s => some s
  | .words _ | .type _ | .literal _ => none

/-- The text of a piece. -/
def Piece.text (d : Dialect) : Piece → String
  | .words s | .name s | .type s => s
  | .literal v => d.defaultLiteral v

/-- The pieces of the definition of a column. -/
def columnPieces (c : Column) : List Piece :=
  [.name c.name, .words " ", .type c.engineType, .words " ", .words (Column.nullText c.nullable)]
    ++ (match c.default with
      | none => []
      | some v => [.words " DEFAULT ", .literal v])

/-- The pieces of the definitions of the reserved columns. -/
def reservedPieces (d : Dialect) : List Piece :=
  [.name "id", .words " VARCHAR(36) NOT NULL, ", .name "created_at",
    .words " TIMESTAMP DEFAULT CURRENT_TIMESTAMP, ", .name "updated_at",
    .words " TIMESTAMP DEFAULT CURRENT_TIMESTAMP"]
    ++ (match d with
      | .mysql => [.words " ON UPDATE CURRENT_TIMESTAMP"]
      | .sqlite => [])

/-- Names with commas between them. -/
def listPieces : List String → List Piece
  | [] => []
  | [n] => [.name n]
  | n :: next :: rest => .name n :: .words ", " :: listPieces (next :: rest)

/-- The pieces of a statement. -/
def pieces (d : Dialect) : Ddl → List Piece
  | .createTable t cs =>
    [.words "CREATE TABLE ", .name t, .words " ("] ++ reservedPieces d
      ++ cs.flatMap (fun c => .words ", " :: columnPieces c)
      ++ [.words ", PRIMARY KEY (", .name "id", .words "))"]
  | .addColumn t c after index =>
    match d with
    | .mysql =>
      [.words "ALTER TABLE ", .name t, .words " ADD "] ++ columnPieces c
        ++ (match after with
          | none => []
          | some a => [.words " AFTER ", .name a])
        ++ (match index with
          | none => []
          | some n =>
            [.words ", ADD ", .words (Dialect.indexWord (c.index == .unique)), .words " ", .name n,
              .words " (", .name c.name, .words ")"])
    | .sqlite => [.words "ALTER TABLE ", .name t, .words " ADD COLUMN "] ++ columnPieces c
  | .modifyColumn t c => [.words "ALTER TABLE ", .name t, .words " MODIFY "] ++ columnPieces c
  | .dropColumn t c => [.words "ALTER TABLE ", .name t, .words " DROP COLUMN ", .name c]
  | .createIndex n t c unique =>
    match d with
    | .mysql =>
      [.words "ALTER TABLE ", .name t, .words " ADD ", .words (Dialect.indexWord unique),
        .words " ", .name n, .words " (", .name c, .words ")"]
    | .sqlite =>
      [.words "CREATE ", .words (if unique then "UNIQUE " else ""), .words "INDEX ", .name n,
        .words " ON ", .name t, .words " (", .name c, .words ")"]
  | .dropIndex n t =>
    match d with
    | .mysql => [.words "ALTER TABLE ", .name t, .words " DROP INDEX ", .name n]
    | .sqlite => [.words "DROP INDEX IF EXISTS ", .name n]
  | .copyRows source target cs =>
    [.words "INSERT INTO ", .name target, .words " ("] ++ listPieces cs ++ [.words ") SELECT "]
      ++ listPieces cs ++ [.words " FROM ", .name source]
  | .dropTable t => [.words "DROP TABLE ", .name t]
  | .renameTable t n => [.words "ALTER TABLE ", .name t, .words " RENAME TO ", .name n]

variable {d : Dialect}

/-- The text of pieces in a row. -/
def joinPieces (d : Dialect) (ps : List Piece) : String := String.join (ps.map (Piece.text d))

@[simp] theorem join_pieces_nil : joinPieces d [] = "" := rfl

@[simp] theorem join_pieces_cons (p : Piece) (ps : List Piece) :
    joinPieces d (p :: ps) = p.text d ++ joinPieces d ps := by
  simp [joinPieces]

@[simp] theorem join_pieces_append (ps qs : List Piece) :
    joinPieces d (ps ++ qs) = joinPieces d ps ++ joinPieces d qs := by
  simp [joinPieces]

theorem column_pieces_join (c : Column) : joinPieces d (columnPieces c) = d.columnDefinition c := by
  unfold columnPieces Dialect.columnDefinition Dialect.columnAttributes
  cases c.default <;> simp [Piece.text, String.append_assoc]

theorem reserved_pieces_join : joinPieces d (reservedPieces d) = d.reservedDefinitions := by
  cases d <;> decide

theorem list_pieces_join (names : List String) :
    joinPieces d (listPieces names) = ", ".intercalate names := by
  induction names with
  | nil => rfl
  | cons n rest ih =>
      cases rest with
      | nil => simp [listPieces, Piece.text]
      | cons next rest =>
          simp [listPieces, Piece.text, String.intercalate_cons_cons, ih, String.append_assoc]

theorem columns_pieces_join (cs : List Column) :
    joinPieces d (cs.flatMap fun c => .words ", " :: columnPieces c) =
      String.join (cs.map fun c => ", " ++ d.columnDefinition c) := by
  induction cs with
  | nil => rfl
  | cons c rest ih =>
      rw [List.flatMap_cons, join_pieces_append, ih, join_pieces_cons, column_pieces_join]
      simp [Piece.text]

theorem create_table_join (t : String) (cs : List Column) :
    d.createTableText t cs = joinPieces d ((createTable t cs).pieces d) := by
  have hkey : ", PRIMARY KEY (id))" = ", PRIMARY KEY (" ++ ("id" ++ "))") := by decide
  unfold Dialect.createTableText
  rewrite [hkey]
  simp only [pieces, join_pieces_append, join_pieces_cons, join_pieces_nil, reserved_pieces_join,
    columns_pieces_join, Piece.text, String.append_empty, String.append_assoc]

theorem add_column_join (t : String) (c : Column) (after index : Option String) :
    d.addColumnText t c after index = joinPieces d ((addColumn t c after index).pieces d) := by
  unfold Dialect.addColumnText
  cases d <;> cases after <;> cases index <;>
    simp only [pieces, join_pieces_append, join_pieces_cons, join_pieces_nil, column_pieces_join,
      Piece.text, String.append_empty, String.append_assoc]

theorem create_index_join (n t c : String) (unique : Bool) :
    d.createIndexText n t c unique = joinPieces d ((createIndex n t c unique).pieces d) := by
  unfold Dialect.createIndexText
  cases d <;>
    simp only [pieces, join_pieces_cons, join_pieces_nil, Piece.text, String.append_empty,
      String.append_assoc]

/-- A statement is its pieces in a row. -/
theorem text_eq_join (d : Dialect) (s : Ddl) : s.text d = joinPieces d (s.pieces d) := by
  -- Each text is stated first, as unfolding it in place makes Lean compute with the words in it.
  cases s with
  | createTable t cs =>
      have htext : (createTable t cs).text d = d.createTableText t cs := rfl
      exact htext.trans (create_table_join t cs)
  | addColumn t c after index =>
      have htext : (addColumn t c after index).text d = d.addColumnText t c after index := rfl
      exact htext.trans (add_column_join t c after index)
  | modifyColumn t c =>
      have htext : (modifyColumn t c).text d =
          "ALTER TABLE " ++ t ++ " MODIFY " ++ d.columnDefinition c := rfl
      refine htext.trans ?_
      simp only [pieces, join_pieces_append, join_pieces_cons, join_pieces_nil,
        column_pieces_join, Piece.text, String.append_empty, String.append_assoc]
  | dropColumn t c =>
      have htext : (dropColumn t c).text d = "ALTER TABLE " ++ t ++ " DROP COLUMN " ++ c := rfl
      refine htext.trans ?_
      simp only [pieces, join_pieces_cons, join_pieces_nil, Piece.text, String.append_empty,
        String.append_assoc]
  | createIndex n t c unique =>
      have htext : (createIndex n t c unique).text d = d.createIndexText n t c unique := rfl
      exact htext.trans (create_index_join n t c unique)
  | dropIndex n t =>
      cases d with
      | mysql =>
          have htext : (dropIndex n t).text .mysql =
              "ALTER TABLE " ++ t ++ " DROP INDEX " ++ n := rfl
          refine htext.trans ?_
          simp only [pieces, join_pieces_cons, join_pieces_nil, Piece.text, String.append_empty,
            String.append_assoc]
      | sqlite =>
          have htext : (dropIndex n t).text .sqlite = "DROP INDEX IF EXISTS " ++ n := rfl
          refine htext.trans ?_
          simp only [pieces, join_pieces_cons, join_pieces_nil, Piece.text, String.append_empty]
  | copyRows source target cs =>
      have htext : (copyRows source target cs).text d = "INSERT INTO " ++ target ++ " ("
        ++ ", ".intercalate cs ++ ") SELECT " ++ ", ".intercalate cs ++ " FROM " ++ source := rfl
      refine htext.trans ?_
      simp only [pieces, join_pieces_append, join_pieces_cons, join_pieces_nil, list_pieces_join,
        Piece.text, String.append_empty, String.append_assoc]
  | dropTable t =>
      have htext : (dropTable t).text d = "DROP TABLE " ++ t := rfl
      refine htext.trans ?_
      simp only [pieces, join_pieces_cons, join_pieces_nil, Piece.text, String.append_empty]
  | renameTable t n =>
      have htext : (renameTable t n).text d = "ALTER TABLE " ++ t ++ " RENAME TO " ++ n := rfl
      refine htext.trans ?_
      simp only [pieces, join_pieces_cons, join_pieces_nil, Piece.text, String.append_empty,
        String.append_assoc]

/-- The names among pieces. -/
def pieceNames (ps : List Piece) : List String := ps.filterMap Piece.name?

/-- The names that are written into a statement. -/
def names (d : Dialect) (s : Ddl) : List String := pieceNames (s.pieces d)

@[simp] theorem piece_names_nil : pieceNames [] = [] := rfl

@[simp] theorem piece_names_name (n : String) (ps : List Piece) :
    pieceNames (.name n :: ps) = n :: pieceNames ps := rfl

@[simp] theorem piece_names_words (w : String) (ps : List Piece) :
    pieceNames (.words w :: ps) = pieceNames ps := rfl

@[simp] theorem piece_names_append (ps qs : List Piece) :
    pieceNames (ps ++ qs) = pieceNames ps ++ pieceNames qs :=
  List.filterMap_append

/-- A column is defined under its name, and its definition holds no other one. -/
@[simp] theorem column_pieces_names (c : Column) : pieceNames (columnPieces c) = [c.name] := by
  unfold columnPieces
  cases c.default <;> rfl

@[simp] theorem reserved_pieces_names :
    pieceNames (reservedPieces d) = Identifier.reservedColumns := by
  cases d <;> rfl

@[simp] theorem list_pieces_names (names : List String) :
    pieceNames (listPieces names) = names := by
  induction names with
  | nil => rfl
  | cons n rest ih =>
      cases rest with
      | nil => rfl
      | cons next rest => rw [listPieces, piece_names_name, piece_names_words, ih]

@[simp] theorem columns_pieces_names (cs : List Column) :
    pieceNames (cs.flatMap fun c => .words ", " :: columnPieces c) = cs.map Column.name := by
  induction cs with
  | nil => rfl
  | cons c rest ih => simp [ih]

theorem create_table_names (t : String) (cs : List Column) :
    (createTable t cs).names d =
      t :: Identifier.reservedColumns ++ cs.map Column.name ++ ["id"] := by
  simp [names, pieces]

theorem copy_rows_names (source target : String) (cs : List String) :
    (copyRows source target cs).names d = target :: cs ++ cs ++ [source] := by
  simp [names, pieces]

/-- The index of a column is made over the column, under its own name. -/
theorem create_index_names (n t c : String) (unique : Bool) :
    (createIndex n t c unique).names d ⊆ [n, t, c] := by
  cases d <;> simp [names, pieces]

end Ddl

namespace Change

/-- The names of a table that is rebuilt, of its scratch table, its columns and their indexes. -/
def rebuildNames (t : String) (cs : List Column) : List String :=
  [t, Dialect.scratchName t] ++ cs.map Column.name
    ++ cs.map fun c => Dialect.sqlite.indexName t c.name

/-- The names that a change can write into its statements, those of reserved columns apart. -/
def names (d : Dialect) : Change → List String
  | .createTable t => [t]
  | .addColumn t c after => [t, c.name, after, d.indexName t c.name]
  | .modifyColumn t c cs =>
    match d with
    | .mysql => [t, c.name]
    | .sqlite => rebuildNames t cs
  | .dropColumn t c index => [t, c] ++ index.toList
  | .addIndex t c _ => [t, c, d.indexName t c]
  | .dropIndex t _ n => [t, n]

theorem index_statement_names {d : Dialect} {t c : String} {kind : IndexKind} {s : Ddl}
    (h : d.indexStatement? t c kind = some s) : s.names d ⊆ [d.indexName t c, t, c] := by
  unfold Dialect.indexStatement? at h
  split at h
  · cases h
    exact Ddl.create_index_names _ _ _ _
  · cases h

/-- A rebuild names the table, its scratch table, the columns and their indexes. -/
theorem names_of_rebuild {t : String} {cs : List Column} {s : Ddl} (h : s ∈ Dialect.rebuild t cs) :
    s.names .sqlite ⊆ Identifier.reservedColumns ++ rebuildNames t cs := by
  rcases List.mem_append.mp h with h | h
  · simp only [List.mem_cons, List.not_mem_nil, or_false] at h
    rcases h with rfl | rfl | rfl | rfl
    · rw [Ddl.create_table_names]
      intro name hname
      simp only [rebuildNames, Identifier.reservedColumns, List.mem_append, List.mem_cons,
        List.not_mem_nil, or_false] at hname ⊢
      grind
    · rw [Ddl.copy_rows_names]
      intro name hname
      simp only [rebuildNames, List.mem_append, List.mem_cons, List.not_mem_nil, or_false]
        at hname ⊢
      grind
    · simp [Ddl.names, Ddl.pieces, rebuildNames]
    · simp [Ddl.names, Ddl.pieces, rebuildNames]
  · obtain ⟨column, hcolumn, hindex⟩ := List.mem_filterMap.mp h
    refine List.Subset.trans (index_statement_names hindex) ?_
    have hname : column.name ∈ cs.map Column.name := List.mem_map_of_mem hcolumn
    have hindexName : Dialect.sqlite.indexName t column.name ∈
        cs.map fun c => Dialect.sqlite.indexName t c.name :=
      List.mem_map_of_mem hcolumn
    simp only [List.cons_subset, List.nil_subset, rebuildNames, List.mem_append]
    exact ⟨.inr (.inr hindexName), .inr (.inl (.inl List.mem_cons_self)), .inr (.inl (.inr hname)),
      trivial⟩

/-- What a change writes into its statements are names of its own, and those of the reserved
columns. -/
theorem statement_names {d : Dialect} {change : Change} {s : Ddl} (h : s ∈ d.statements change) :
    s.names d ⊆ Identifier.reservedColumns ++ change.names d := by
  cases change with
  | createTable t =>
      cases List.mem_singleton.mp h
      rw [Ddl.create_table_names]
      simp [names, Identifier.reservedColumns]
  | addColumn t c after =>
      cases d with
      | mysql =>
          cases List.mem_singleton.mp h
          split <;> simp [Ddl.names, Ddl.pieces, names]
      | sqlite =>
          rcases List.mem_cons.mp h with rfl | h
          · simp [Ddl.names, Ddl.pieces, names]
          · refine List.Subset.trans (index_statement_names (Option.mem_toList.mp h)) ?_
            simp [names]
  | modifyColumn t c cs =>
      cases d with
      | mysql =>
          cases List.mem_singleton.mp h
          simp [Ddl.names, Ddl.pieces, names]
      | sqlite => exact names_of_rebuild h
  | dropColumn t c index =>
      cases d with
      | mysql =>
          cases List.mem_singleton.mp h
          simp [Ddl.names, Ddl.pieces, names]
      | sqlite =>
          cases index <;> simp [Dialect.statements] at h
          · simp [h, Ddl.names, Ddl.pieces, names]
          · rcases h with rfl | rfl <;> simp [Ddl.names, Ddl.pieces, names]
  | addIndex t c kind =>
      refine List.Subset.trans (index_statement_names (Option.mem_toList.mp h)) ?_
      simp [names]
  | dropIndex t c n =>
      cases List.mem_singleton.mp h
      cases d <;> simp [Ddl.names, Ddl.pieces, names]

end Change

end SchemaKeeper

import SchemaKeeper.Proofs.Synchronization.Scope

/-!
# Notices

Without force many parts of a synchronization do no more than to note what they would do: they
record skipped changes and leave the tracked columns and the engine alone. `Session.Notes` says so
of a session, and the notices themselves are worked out here from the declared and the live columns:
those on columns that would go, on definitions that would change, and on indexes that would be
replaced.
-/

namespace SchemaKeeper

namespace Session

variable {σ α β : Type}

/-- The session gives this value and does nothing but record these changes. -/
def Notes (op : Session σ α) (a : α) (records : List ChangeRecord) : Prop :=
  ∀ db, op.run db = (.ok a, { db with journal := db.journal ++ records.map .recorded })

namespace Notes

variable {op : Session σ α} {a : α} {records : List ChangeRecord}

protected theorem pure (a : α) : (pure a : Session σ α).Notes a [] := by
  intro db
  show (Except.ok a, db) = _
  rw [List.map_nil, List.append_nil]

protected theorem bind {f : α → Session σ β} {c : β} {first second : List ChangeRecord}
    (hop : op.Notes a first) (hf : (f a).Notes c second) :
    (op >>= f).Notes c (first ++ second) := by
  intro db
  rw [run_bind, hop db]
  dsimp only
  rw [hf, List.map_append, List.append_assoc]

/-- A session that notes something and is followed by a value alone. -/
theorem map (hop : op.Notes a records) (g : α → β) :
    (op >>= fun a => pure (g a)).Notes (g a) records := by
  have h : (op >>= fun a => pure (g a)).Notes (g a) (records ++ []) := hop.bind (Notes.pure _)
  rwa [List.append_nil] at h

/-- Whatever the engine answers, the value and the records are all there is to the session. -/
theorem shows (hop : op.Notes a records) :
    op.Shows fun result events => result = .ok a ∧ events = records.map .recorded :=
  fun db => ⟨by rw [hop db], trace_eq (by rw [hop db])⟩

/-- After a session that notes something another one goes on with its value. -/
theorem bind_shows {f : α → Session σ β} [Grows op] [∀ a, Grows (f a)]
    {post : Except Failure β → List Event → Prop} (hop : op.Notes a records)
    (hf : (f a).Shows fun result events => post result (records.map .recorded ++ events)) :
    (op >>= f).Shows post := by
  intro db
  obtain ⟨hresult, hevents⟩ := hop.shows db
  have hnext := hf (op.run db).2
  rw [result_bind, trace_bind hresult, hresult, hevents]
  exact hnext

end Notes

theorem note_notes (record : ChangeRecord) :
    (note record >>= fun _ => pure record : Session σ ChangeRecord).Notes record [record] :=
  fun _ => rfl

end Session

namespace Synchronization

open Session

variable {σ : Type} {b : Backend σ} {options : SyncOptions} {table : String} {declared : Column}
  {current : LiveColumn} {live : List LiveColumn}

/-- The notice on a column that would go. -/
def dropNotice (d : Dialect) (table : String) (column : LiveColumn) : ChangeRecord :=
  .of d (.dropColumn table column.name column.indexName) (.skipped .destructive)

/-- The notice on a live column whose definition would change, if it would. -/
def definitionNotices (d : Dialect) (table : String) (declared : Column) (current : LiveColumn)
    (live : List LiveColumn) : List ChangeRecord :=
  let column := { declared with index := current.spec.index }
  let live' := replaceFirst declared.name (fun c => { c with spec := column }) live
  if declared.definitionDiffers current.spec then
    [.of d (.modifyColumn table column (live'.map LiveColumn.spec)) (.skipped .destructive)]
  else []

/-- The notices on an index that would go, and on the one that would replace it, if there is one to
be replaced. -/
def indexNotices (d : Dialect) (table : String) (declared : Column) (current : LiveColumn) :
    List ChangeRecord :=
  if current.spec.index = declared.index then []
  else if current.spec.index.isIndexed then
    .of d (.dropIndex table declared.name
      (current.indexName.getD (d.indexName table declared.name))) (.skipped .destructive) ::
    if declared.index.isIndexed then
      [.of d (.addIndex table declared.name declared.index) (.skipped .pendingIndexDrop)]
    else []
  else []

/-- A notice on a definition tells of the change that is not made. -/
theorem mem_definition_notices {d : Dialect} {record : ChangeRecord}
    (h : record ∈ definitionNotices d table declared current live) : ∃ column columns,
      record = .of d (.modifyColumn table column columns) (.skipped .destructive) := by
  unfold definitionNotices at h
  dsimp only at h
  split at h
  · exact ⟨_, _, List.mem_singleton.mp h⟩
  · cases h

/-- A notice on an index tells that the index of a live column stays, or that another one is held
back for it. -/
theorem mem_index_notices {d : Dialect} {record : ChangeRecord}
    (h : record ∈ indexNotices d table declared current) :
    current.spec.index.isIndexed = true ∧
      ((∃ name, record = .of d (.dropIndex table declared.name name) (.skipped .destructive)) ∨
        record = .of d (.addIndex table declared.name declared.index)
          (.skipped .pendingIndexDrop)) := by
  unfold indexNotices at h
  split at h
  · cases h
  · split at h
    · next hindexed =>
        refine ⟨hindexed, ?_⟩
        rcases List.mem_cons.mp h with rfl | h
        · exact .inl ⟨_, rfl⟩
        · split at h
          · exact .inr (List.mem_singleton.mp h)
          · cases h
    · cases h

/-- Without force a destructive change is recorded as skipped, and that is all. -/
theorem apply_notes (hforce : options.force = false) {change : Change}
    (hchange : change.isDestructive = true) : (apply b options change).Notes
      (.of b.dialect change (.skipped .destructive))
      [.of b.dialect change (.skipped .destructive)] := by
  have houtcome : outcomeOf options change = .skipped .destructive := by
    rw [outcomeOf, hchange, hforce]
    rfl
  unfold apply
  rw [houtcome]
  exact note_notes _

theorem skip_notes (b : Backend σ) (reason : SkipReason) (change : Change) :
    (skip b reason change).Notes (.of b.dialect change (.skipped reason))
      [.of b.dialect change (.skipped reason)] :=
  note_notes _

/-- Without force a definition that differs is only noted. -/
theorem redefine_notes (hforce : options.force = false) (table : String) (declared : Column)
    (current : LiveColumn) (live : List LiveColumn) :
    (redefine b options table declared current live).Notes
      (live, definitionNotices b.dialect table declared current live)
      (definitionNotices b.dialect table declared current live) := by
  unfold redefine definitionNotices
  cases declared.definitionDiffers current.spec with
  | false => exact Notes.pure _
  | true =>
      unfold modify
      exact (apply_notes hforce rfl).bind (Notes.pure _)

/-- An index that replaces one that stays is only noted. -/
theorem add_index_notes (b : Backend σ) (options : SyncOptions) (table : String)
    (declared : Column) (live : List LiveColumn) :
    (addIndex b options table declared true live).Notes
      (live, if declared.index.isIndexed then
        [.of b.dialect (.addIndex table declared.name declared.index) (.skipped .pendingIndexDrop)]
      else [])
      (if declared.index.isIndexed then
        [.of b.dialect (.addIndex table declared.name declared.index) (.skipped .pendingIndexDrop)]
      else []) := by
  unfold addIndex
  cases declared.index.isIndexed with
  | false => exact Notes.pure _
  | true => exact (skip_notes b _ _).map _

/-- Without force an index of a live column stays, and what would replace it is only noted. -/
theorem sync_index_notes (hforce : options.force = false)
    (hfind : live.find? (fun c => c.name = declared.name) = some current)
    (hindex : current.spec.index = declared.index ∨ current.spec.index.isIndexed = true) :
    (syncIndex b options table declared live).Notes
      (live, indexNotices b.dialect table declared current)
      (indexNotices b.dialect table declared current) := by
  rw [sync_index_some hfind]
  unfold indexNotices
  by_cases hequal : current.spec.index = declared.index
  · rw [if_pos hequal, if_pos hequal]
    exact Notes.pure _
  · rw [if_neg hequal, if_neg hequal, if_pos (hindex.resolve_left hequal),
      if_pos (hindex.resolve_left hequal)]
    refine (apply_notes hforce rfl).bind ?_
    exact (add_index_notes b options table declared live).map _

end Synchronization

end SchemaKeeper

import Mathlib.Data.List.Nodup
import SchemaKeeper.Proofs.Session.Faithful
import SchemaKeeper.Proofs.Synchronization.Account
import SchemaKeeper.Proofs.Synchronization.Plan

/-!
# The tracked columns mirror the engine

A run keeps a list of live columns as it goes and rarely looks at the engine again. `Mirrors` says
that this list is what the engine would show: an executing run has the engine's columns in some
order, a dry run leaves the engine alone. `apply_mirrors` keeps it for one change, and each part of
a synchronization of a table keeps it for all of its changes.
-/

namespace SchemaKeeper

namespace Synchronization

open Session

variable {σ : Type} {b : Backend σ} {s : Structure} {options : SyncOptions} {table : String}
  {initial : Structure} {live : List LiveColumn}

/-- The list of live columns that a run keeps for a table is what the engine has, and the run has
touched no other table. -/
structure Mirrors (options : SyncOptions) (table : String) (initial : Structure)
    (live : List LiveColumn) (s : Structure) : Prop where
  others : ∀ other ≠ table, s other = initial other
  untouched : options.dryRun = true → s table = initial table
  engine : options.dryRun = false →
    ∃ now, s table = some now ∧ (now.map LiveColumn.spec).Perm (live.map LiveColumn.spec)

/-- Statements that are executed leave the structure to the records of changes. -/
theorem execute_all_yields (statements : List Ddl) :
    Yields b s (executeAll b statements) fun _ s' => s' = s := by
  induction statements with
  | nil => exact Yields.pure rfl
  | cons first rest ih =>
      have hfirst : Yields b s (execute b (.ddl first)) fun _ s' => s' = s := Yields.execute _
      show Yields b s (execute b (.ddl first) >>= fun _ => executeAll b rest) fun _ s' => s' = s
      refine hfirst.bind fun _ mid hmid => ?_
      subst hmid
      exact ih

/-- A change that is carried out takes effect, and no other does. -/
theorem apply_yields (change : Change) : Yields b s (apply b options change) fun record s' =>
    record = .of b.dialect change (outcomeOf options change) ∧
      if outcomeOf options change = .applied then change.Effect s s' else s' = s := by
  unfold apply
  refine (execute_all_yields _).bind fun _ mid hmid => ?_
  subst hmid
  exact (Yields.note _).bind fun _ s' hs' => Yields.pure ⟨rfl, hs'⟩

theorem skip_yields (reason : SkipReason) (change : Change) :
    Yields b s (skip b reason change) fun record s' =>
      record = .of b.dialect change (.skipped reason) ∧ s' = s := by
  unfold skip
  exact (Yields.note _).bind fun _ s' hs' => Yields.pure ⟨rfl, hs'⟩

/-- Only destructive changes without force are skipped on their own account. -/
theorem is_skipped_of (d : Dialect) (change : Change) :
    (ChangeRecord.of d change (outcomeOf options change)).isSkipped
      = (change.isDestructive && !options.force) := by
  unfold ChangeRecord.of ChangeRecord.isSkipped outcomeOf
  cases change.isDestructive <;> cases options.force <;> cases options.dryRun <;> rfl

/-- A change keeps the tracked columns in step with the engine if they are edited the way the change
says unless it is skipped. -/
theorem apply_mirrors {change : Change} {live' : List LiveColumn}
    (hmirrors : Mirrors options table initial live s) (htable : change.table = table)
    (hedit : (live'.map LiveColumn.spec).Perm (change.edit (live.map LiveColumn.spec))) :
    Yields b s (apply b options change) fun record s' =>
      record = .of b.dialect change (outcomeOf options change) ∧
        Mirrors options table initial
          (if change.isDestructive && !options.force then live else live') s' := by
  subst htable
  refine (apply_yields change).mono fun record s' h => ⟨h.1, ?_⟩
  obtain ⟨-, h⟩ := h
  unfold outcomeOf at h
  by_cases hskipped : (change.isDestructive && !options.force) = true
  · rw [if_pos hskipped] at h ⊢
    cases h
    exact hmirrors
  · rw [if_neg hskipped] at h ⊢
    cases hdry : options.dryRun with
    | true =>
        rw [hdry] at h
        cases h
        exact ⟨hmirrors.others, hmirrors.untouched, fun hlive => by simp [hdry] at hlive⟩
    | false =>
        rw [hdry] at h
        obtain ⟨now, hnow, hperm⟩ := hmirrors.engine hdry
        obtain ⟨⟨columns, hcolumns, hedited⟩, hothers⟩ := h
        rw [Structure.specs_eq hnow] at hedited
        refine ⟨fun other hne => ?_, fun hplanned => by simp [hdry] at hplanned, fun _ => ?_⟩
        · rw [hothers other hne, hmirrors.others other hne]
        · exact ⟨columns, hcolumns, hedited.trans ((change.edit_perm hperm).trans hedit.symm)⟩

/-- The record of a destructive change goes by the gate. -/
theorem outcome_of_destructive {change : Change} (h : change.isDestructive = true) :
    outcomeOf options change = options.gate := by
  unfold outcomeOf SyncOptions.gate SyncOptions.reach
  cases options.force <;> simp [h]

/-- The record of another change is out of the gate's reach. -/
theorem outcome_of_harmless {change : Change} (h : change.isDestructive = false) :
    outcomeOf options change = options.reach := by
  unfold outcomeOf SyncOptions.reach
  simp [h]

/-- A live column of clean names is dropped under these. -/
theorem drop_of_clean {table : String} {column : LiveColumn}
    (hname : Identifier.IsClean column.name)
    (hindex : ∀ index, column.indexName = some index → Identifier.IsClean index) :
    dropOf table column = .ok (.dropColumn table column.name column.indexName) := by
  unfold dropOf
  rw [Identifier.sanitize_clean hname]
  cases h : column.indexName with
  | none => rfl
  | some index =>
      show Identifier.sanitize index >>= _ = _
      rw [Identifier.sanitize_clean (hindex index h)]
      rfl

/-- The columns that go are dropped in order, and the others stay. -/
theorem drop_all_yields {doomed : List LiveColumn}
    (hclean : ∀ c ∈ doomed, Identifier.IsClean c.name ∧
      ∀ index, c.indexName = some index → Identifier.IsClean index)
    (hmirrors : Mirrors options table initial live s) :
    Yields b s (dropAll b options table doomed live) fun p s' =>
      p.1 = (if options.force
        then live.filter fun c => !(doomed.map LiveColumn.name).contains c.name
        else live) ∧
      Mirrors options table initial p.1 s' ∧
      Follows b.dialect
        (doomed.map fun c => ⟨.exactly (.dropColumn table c.name c.indexName), options.gate⟩)
        p.2 := by
  induction doomed generalizing live s with
  | nil => exact Yields.pure ⟨by split <;> simp, hmirrors, .nil⟩
  | cons column rest ih =>
      obtain ⟨⟨hname, hindex⟩, hrest⟩ := List.forall_mem_cons.mp hclean
      have hedit : ((live.filter fun c => c.name ≠ column.name).map LiveColumn.spec).Perm
          ((Change.dropColumn table column.name column.indexName).edit
            (live.map LiveColumn.spec)) := by
        rw [Change.edit, List.filter_map]
        exact .refl _
      rw [drop_all_cons]
      refine Yields.built_bind (drop_of_clean hname hindex) ?_
      refine (apply_mirrors hmirrors rfl hedit).bind fun record mid h => ?_
      obtain ⟨rfl, hmid⟩ := h
      rw [is_skipped_of]
      refine (ih hrest hmid).bind fun p s' h => Yields.pure ?_
      obtain ⟨hlive, hs', hlog⟩ := h
      refine ⟨?_, hs', .cons ⟨.exactly _, ?_⟩ hlog⟩
      · rw [hlive]
        cases options.force with
        | true => simp [Change.isDestructive, List.filter_filter, Bool.and_comm]
        | false => simp [Change.isDestructive]
      · rw [outcome_of_destructive rfl]
        rfl

/-- Where names are distinct, replacing the first column of a name replaces the only one. -/
theorem replace_first_eq_map {name : String} (f : LiveColumn → LiveColumn)
    (hnames : (live.map LiveColumn.name).Nodup) :
    replaceFirst name f live = live.map fun c => if c.name = name then f c else c := by
  induction live with
  | nil => rfl
  | cons c rest ih =>
      rw [List.map_cons, List.nodup_cons] at hnames
      unfold replaceFirst
      by_cases hname : c.name = name
      · rw [if_pos hname, List.map_cons, if_pos hname]
        congr 1
        rw [List.map_congr_left (g := id), List.map_id]
        intro d hd
        refine if_neg fun hd' => hnames.1 ?_
        rw [hname, ← hd']
        exact List.mem_map_of_mem hd
      · rw [if_neg hname, List.map_cons, if_neg hname, ih hnames.2]

/-- A column is put somewhere among the others. -/
theorem insert_after_perm (after : String) (column : LiveColumn) (live : List LiveColumn) :
    (insertAfter after column live).Perm (column :: live) := by
  unfold insertAfter
  split
  · next i _ =>
      refine List.perm_middle.trans ?_
      rw [List.take_append_drop]
  · exact .refl _

/-- Replacing a column by one of the same name keeps all names. -/
theorem names_replace_first {name : String} {f : LiveColumn → LiveColumn}
    (hf : ∀ c, c.name = name → (f c).name = name) :
    (replaceFirst name f live).map LiveColumn.name = live.map LiveColumn.name := by
  induction live with
  | nil => rfl
  | cons c rest ih =>
      unfold replaceFirst
      by_cases hname : c.name = name
      · rw [if_pos hname, List.map_cons, List.map_cons, hf c hname, hname]
      · rw [if_neg hname, List.map_cons, List.map_cons, ih]

/-- The names of columns and of their indexes. -/
def tags (live : List LiveColumn) : List (String × Option String) :=
  live.map fun c => (c.name, c.indexName)

/-- Where names are distinct, a live column is known by the name of its declared side. -/
theorem spec_of_name {current : LiveColumn} {c : Column}
    (hnames : (live.map LiveColumn.name).Nodup) (hcurrent : current ∈ live)
    (hc : c ∈ live.map LiveColumn.spec) (hname : c.name = current.name) : c = current.spec := by
  obtain ⟨other, hother, rfl⟩ := List.mem_map.mp hc
  rw [List.inj_on_of_nodup_map hnames hother hcurrent hname]

/-- Replacing the live column of a name changes the one declared side of this name. -/
theorem map_spec_replace_first {current : LiveColumn} {name : String}
    (f : LiveColumn → LiveColumn) (g : Column → Column)
    (hnames : (live.map LiveColumn.name).Nodup) (hcurrent : current ∈ live)
    (hname : current.name = name) (hfg : (f current).spec = g current.spec) :
    (replaceFirst name f live).map LiveColumn.spec =
      Column.onNamed name g (live.map LiveColumn.spec) := by
  rw [replace_first_eq_map f hnames, Column.onNamed, List.map_map, List.map_map]
  refine List.map_congr_left fun c hc => ?_
  rw [Function.comp_apply, Function.comp_apply]
  by_cases hc' : c.name = name
  · have hsame : c = current :=
      List.inj_on_of_nodup_map hnames hc hcurrent (hc'.trans hname.symm)
    rw [if_pos hc', hsame, hfg]
    exact (if_pos hname).symm
  · rw [if_neg hc']
    exact (if_neg hc').symm

/-- Replacing a column by one of the same name and index name leaves all of these as they are. -/
theorem tags_replace_first {name : String} {f : LiveColumn → LiveColumn}
    (hf : ∀ c, c.name = name → (f c).name = name ∧ (f c).indexName = c.indexName) :
    tags (replaceFirst name f live) = tags live := by
  induction live with
  | nil => rfl
  | cons c rest ih =>
      unfold replaceFirst
      by_cases hname : c.name = name
      · rw [if_pos hname, tags, tags, List.map_cons, List.map_cons, (hf c hname).1, (hf c hname).2,
          hname]
      · rw [if_neg hname]
        exact congrArg ((c.name, c.indexName) :: ·) ih

/-- Where names are distinct, a column has the index name that stands beside its name. -/
theorem index_name_of_tag {column : LiveColumn} {tag : String × Option String}
    (hnames : (live.map LiveColumn.name).Nodup) (hcolumn : column ∈ live)
    (htag : tag ∈ tags live) (hname : column.name = tag.1) : column.indexName = tag.2 := by
  obtain ⟨other, hother, rfl⟩ := List.mem_map.mp htag
  rw [List.inj_on_of_nodup_map hnames hcolumn hother hname]

/-- A table that is read again gives the engine's own columns for the tracked ones. -/
theorem reread_yields (htable : Identifier.IsClean table) (hdry : options.dryRun = false)
    (hmirrors : Mirrors options table initial live s) :
    Yields b s (userColumns b table) fun reread s' =>
      Mirrors options table initial reread s' ∧
        (reread.map LiveColumn.spec).Perm (live.map LiveColumn.spec) := by
  refine (Yields.user_columns (Identifier.sanitize_clean htable)).mono fun reread s' h => ?_
  obtain ⟨rfl, hreread⟩ := h
  obtain ⟨now, hnow, hsame⟩ := hmirrors.engine hdry
  cases hreread now hnow
  exact ⟨⟨hmirrors.others, hmirrors.untouched, fun _ => ⟨reread, hnow, .refl _⟩⟩, hsame⟩

/-- A live column is given its declared definition if the gate lets it pass. Index names are known
afterwards unless the definition was applied. -/
theorem modify_yields {declared column : Column} {current : LiveColumn} {columns : List Column}
    (htable : Identifier.IsClean table) (hnames : (live.map LiveColumn.name).Nodup)
    (hcurrent : current ∈ live) (hname : current.name = declared.name)
    (hcolumn : column = { declared with index := current.spec.index })
    (hmirrors : Mirrors options table initial live s)
    (hcolumns : (live.map LiveColumn.spec).Perm columns) :
    Yields b s (modify b options table declared current live) fun p s' =>
      (p.1.map LiveColumn.spec).Perm
        (if options.force then Column.onNamed declared.name (fun _ => column) columns
          else columns) ∧
      Mirrors options table initial p.1 s' ∧
      ((options.force && !options.dryRun) = false → tags p.1 = tags live) ∧
      Follows b.dialect [⟨.redefinition table column
        (Column.onNamed declared.name (fun _ => column) columns), options.gate⟩] p.2 := by
  unfold modify
  dsimp only
  rw [← hcolumn]
  have hspecs := map_spec_replace_first (fun c => { c with spec := column }) (fun _ => column)
    hnames hcurrent hname rfl
  have htags : tags (replaceFirst declared.name (fun c => { c with spec := column }) live)
      = tags live := tags_replace_first fun c hc => ⟨by rw [hcolumn]; rfl, rfl⟩
  -- Only the declared sides and the tags of the new columns matter from here on.
  generalize replaceFirst declared.name (fun c => { c with spec := column }) live = live'
    at hspecs htags ⊢
  have hperm : (live'.map LiveColumn.spec).Perm
      (Column.onNamed declared.name (fun _ => column) columns) := by
    rw [hspecs]
    exact Column.on_named_perm hcolumns
  have hedit : (live'.map LiveColumn.spec).Perm
      ((Change.modifyColumn table column (live'.map LiveColumn.spec)).edit
        (live.map LiveColumn.spec)) := by
    rw [hspecs, Change.edit, hcolumn]
    refine .of_eq (Column.on_named_congr fun c hc hc' => ?_)
    rw [spec_of_name hnames hcurrent hc (hc'.trans hname.symm)]
  refine (apply_mirrors hmirrors rfl hedit).bind fun record mid h => ?_
  obtain ⟨rfl, hmid⟩ := h
  have hentry : Entry.Matches b.dialect ⟨.redefinition table column
      (Column.onNamed declared.name (fun _ => column) columns), options.gate⟩
      (.of b.dialect (.modifyColumn table column (live'.map LiveColumn.spec))
        (outcomeOf options (.modifyColumn table column (live'.map LiveColumn.spec)))) := by
    refine ⟨.redefinition _ _ _ _ hperm, ?_⟩
    rw [outcome_of_destructive rfl]
    rfl
  rw [is_skipped_of]
  cases hforce : options.force with
  | false =>
      rw [hforce] at hmid
      exact Yields.pure ⟨hcolumns, hmid, fun _ => rfl, .cons hentry .nil⟩
  | true =>
      rw [hforce] at hmid
      cases hdry : options.dryRun with
      | true => exact Yields.pure ⟨hperm, hmid, fun _ => htags, .cons hentry .nil⟩
      | false =>
          -- The engine may have renamed indexes, so nothing is said about the tags.
          refine (reread_yields htable hdry hmid).bind fun reread s' h => Yields.pure ?_
          obtain ⟨hs', hsame⟩ := h
          exact ⟨hsame.trans hperm, hs', fun h => by simp at h, .cons hentry .nil⟩

/-- A live column is brought to its declared definition, and the others stay as they are. -/
theorem redefine_yields {declared : Column} {current : LiveColumn} {columns : List Column}
    (htable : Identifier.IsClean table) (hnames : (live.map LiveColumn.name).Nodup)
    (hcurrent : current ∈ live) (hname : current.name = declared.name)
    (hmirrors : Mirrors options table initial live s)
    (hcolumns : (live.map LiveColumn.spec).Perm columns) :
    Yields b s (redefine b options table declared current live) fun p s' =>
      (p.1.map LiveColumn.spec).Perm
        (Column.onNamed declared.name (redefined options.force declared) columns) ∧
      Mirrors options table initial p.1 s' ∧
      ((options.force && !options.dryRun && declared.definitionDiffers current.spec) = false →
        tags p.1 = tags live) ∧
      Follows b.dialect
        (planDefinition options table columns declared current.spec) p.2 := by
  have hsame : ∀ c ∈ columns, c.name = declared.name → c = current.spec := fun c hc hc' =>
    spec_of_name hnames hcurrent (hcolumns.mem_iff.mpr hc) (hc'.trans hname.symm)
  unfold redefine planDefinition
  cases hdiffers : declared.definitionDiffers current.spec with
  | false =>
      refine Yields.pure ⟨?_, hmirrors, fun _ => rfl, .nil⟩
      rw [Column.on_named_same fun c hc hc' => ?_]
      · exact hcolumns
      · rw [hsame c hc hc', redefined, hdiffers, Bool.false_and, if_neg Bool.false_ne_true]
  | true =>
      refine (modify_yields htable hnames hcurrent hname rfl hmirrors hcolumns).mono
        fun p s' h => ?_
      obtain ⟨hperm, hs', htags, hlog⟩ := h
      refine ⟨hperm.trans (.of_eq ?_), hs', by rwa [Bool.and_true], hlog⟩
      cases hforce : options.force with
      | true =>
          refine Column.on_named_congr fun c hc hc' => ?_
          rw [hsame c hc hc', redefined, hdiffers]
          rfl
      | false =>
          refine (Column.on_named_same fun c hc hc' => ?_).symm
          rw [hsame c hc hc', redefined, Bool.and_false, if_neg Bool.false_ne_true]

/-- The names of the columns beside the given one, and of their indexes, are all still there. -/
def KeepsTags (name : String) (live live' : List LiveColumn) : Prop :=
  ∀ tag ∈ tags live, tag.1 ≠ name → tag ∈ tags live'

theorem KeepsTags.trans {name : String} {live live' live'' : List LiveColumn}
    (h : KeepsTags name live live') (h' : KeepsTags name live' live'') :
    KeepsTags name live live'' :=
  fun tag htag hne => h' tag (h tag htag hne) hne

theorem keeps_tags_of_eq {name : String} {live live' : List LiveColumn}
    (h : tags live' = tags live) : KeepsTags name live live' :=
  fun _ htag _ => h ▸ htag

/-- Replacing a column leaves the tags of the others alone. -/
theorem keeps_tags_replace_first (name : String) (f : LiveColumn → LiveColumn) :
    KeepsTags name live (replaceFirst name f live) := by
  intro tag htag hne
  obtain ⟨c, hc, rfl⟩ := List.mem_map.mp htag
  refine List.mem_map.mpr ⟨c, ?_, rfl⟩
  clear htag
  induction live with
  | nil => cases hc
  | cons d rest ih =>
      unfold replaceFirst
      rcases List.mem_cons.mp hc with rfl | hrest
      · rw [if_neg hne]
        exact List.mem_cons_self
      · split
        · exact List.mem_cons_of_mem _ hrest
        · exact List.mem_cons_of_mem _ (ih hrest)

theorem not_indexed_iff {kind : IndexKind} : kind.isIndexed = false ↔ kind = .none := by
  cases kind <;> decide

/-- The declared index of a column without one is added, unless an old index stays. -/
theorem add_index_yields {declared : Column} {current : LiveColumn} {columns : List Column}
    (stays : Bool) (hnames : (live.map LiveColumn.name).Nodup) (hcurrent : current ∈ live)
    (hname : current.name = declared.name) (hfree : stays = false → current.spec.index = .none)
    (hmirrors : Mirrors options table initial live s)
    (hcolumns : (live.map LiveColumn.spec).Perm columns) :
    Yields b s (addIndex b options table declared stays live) fun p s' =>
      (p.1.map LiveColumn.spec).Perm (Column.onNamed declared.name
        (fun c => if stays then c else { c with index := declared.index }) columns) ∧
      Mirrors options table initial p.1 s' ∧ KeepsTags declared.name live p.1 ∧
      Follows b.dialect
        (if declared.index.isIndexed then
          [⟨.exactly (.addIndex table declared.name declared.index),
            if stays then .skipped .pendingIndexDrop else options.reach⟩]
        else []) p.2 := by
  have hsame : ∀ c ∈ columns, c.name = declared.name → c = current.spec := fun c hc hc' =>
    spec_of_name hnames hcurrent (hcolumns.mem_iff.mpr hc) (hc'.trans hname.symm)
  unfold addIndex
  cases hindexed : declared.index.isIndexed with
  | false =>
      refine Yields.pure ⟨hcolumns.trans (.of_eq ?_), hmirrors, keeps_tags_of_eq rfl, .nil⟩
      refine (Column.on_named_same fun c hc hc' => ?_).symm
      split
      · rfl
      · next hstays =>
          have hnone := hfree (by simpa using hstays)
          rw [← hsame c hc hc', ← not_indexed_iff.mp hindexed] at hnone
          rw [← hnone]
  | true =>
      cases stays with
      | true =>
          refine (skip_yields _ _).bind fun record s' h => Yields.pure ?_
          obtain ⟨rfl, rfl⟩ := h
          refine ⟨hcolumns.trans (.of_eq (Column.on_named_same fun c _ _ => rfl).symm), hmirrors,
            keeps_tags_of_eq rfl, .cons ⟨.exactly _, rfl⟩ .nil⟩
      | false =>
          have hspecs := map_spec_replace_first
            (fun c => ⟨{ c.spec with index := declared.index },
              some (b.dialect.indexName table declared.name)⟩)
            (fun c => { c with index := declared.index }) hnames hcurrent hname rfl
          refine (apply_mirrors hmirrors rfl (.of_eq hspecs)).bind
            fun record s' h => Yields.pure ?_
          obtain ⟨rfl, hs'⟩ := h
          refine ⟨?_, hs', keeps_tags_replace_first _ _, .cons ⟨.exactly _, ?_⟩ .nil⟩
          · rw [hspecs]
            exact Column.on_named_perm hcolumns
          · rw [outcome_of_harmless rfl]
            rfl

/-- A live column without its index. -/
def unindexed (c : LiveColumn) : LiveColumn := ⟨{ c.spec with index := .none }, none⟩

/-- An index that a live column has makes room for the declared one if the gate lets it go, and
stays otherwise. -/
theorem replace_index_yields {declared : Column} {current : LiveColumn} {columns : List Column}
    {drop : Expected} {index : String} (hnames : (live.map LiveColumn.name).Nodup)
    (hcurrent : current ∈ live) (hname : current.name = declared.name)
    (hindexed : current.spec.index.isIndexed = true)
    (hdrop : drop.Matches (.dropIndex table declared.name index))
    (hmirrors : Mirrors options table initial live s)
    (hcolumns : (live.map LiveColumn.spec).Perm columns) :
    Yields b s
      (apply b options (.dropIndex table declared.name index) >>= fun record =>
        addIndex b options table declared record.isSkipped
          (if record.isSkipped then live
            else replaceFirst declared.name unindexed live)
          >>= fun p =>
        pure (p.1, record :: p.2))
      fun p s' =>
        (p.1.map LiveColumn.spec).Perm
          (Column.onNamed declared.name (reindexed options.force declared) columns) ∧
        Mirrors options table initial p.1 s' ∧ KeepsTags declared.name live p.1 ∧
        Follows b.dialect
          (⟨drop, options.gate⟩ :: if declared.index.isIndexed then
            [⟨.exactly (.addIndex table declared.name declared.index),
              if !options.force then .skipped .pendingIndexDrop else options.reach⟩]
          else []) p.2 := by
  have hspecs : (replaceFirst declared.name unindexed live).map LiveColumn.spec =
      Column.onNamed declared.name (fun c => { c with index := .none })
        (live.map LiveColumn.spec) := map_spec_replace_first _ _ hnames hcurrent hname rfl
  have hnames' : ((replaceFirst declared.name unindexed live).map LiveColumn.name).Nodup := by
    rw [names_replace_first]
    · exact hnames
    · exact fun _ hc => hc
  have hcurrent' : unindexed current ∈ replaceFirst declared.name unindexed live := by
    rw [replace_first_eq_map _ hnames]
    exact List.mem_map.mpr ⟨current, hcurrent, if_pos hname⟩
  have hedit : ((replaceFirst declared.name unindexed live).map LiveColumn.spec).Perm
      ((Change.dropIndex table declared.name index).edit (live.map LiveColumn.spec)) :=
    .of_eq hspecs
  refine (apply_mirrors hmirrors rfl hedit).bind fun record mid h => ?_
  obtain ⟨rfl, hmid⟩ := h
  have hentry : Entry.Matches b.dialect ⟨drop, options.gate⟩
      (.of b.dialect (.dropIndex table declared.name index)
        (outcomeOf options (.dropIndex table declared.name index))) :=
    ⟨hdrop, by rw [outcome_of_destructive rfl]; rfl⟩
  rw [is_skipped_of]
  cases hforce : options.force with
  | false =>
      rw [hforce] at hmid
      -- The old index stays, so that the new one is held back.
      refine (add_index_yields true hnames hcurrent hname (fun h => nomatch h) hmid
        hcolumns).bind fun p s' h => Yields.pure ?_
      obtain ⟨hperm, hs', htags', hlog⟩ := h
      refine ⟨hperm.trans (.of_eq ?_), hs', htags', .cons hentry hlog⟩
      refine Column.on_named_congr fun c hc hc' => ?_
      rw [spec_of_name hnames hcurrent (hcolumns.mem_iff.mpr hc) (hc'.trans hname.symm),
        reindexed, hindexed]
      rfl
  | true =>
      rw [hforce] at hmid
      -- Dropping the index and adding the new one is one change of the column.
      have hcolumns' := (List.Perm.of_eq hspecs).trans (Column.on_named_perm hcolumns)
      refine (add_index_yields false hnames' hcurrent' hname (fun _ => rfl) hmid
        hcolumns').bind fun p s' h => Yields.pure ?_
      obtain ⟨hperm, hs', htags', hlog⟩ := h
      refine ⟨hperm.trans (.of_eq ?_), hs', (keeps_tags_replace_first _ _).trans htags',
        .cons hentry hlog⟩
      rw [Column.on_named_on_named]
      · exact Column.on_named_congr fun c _ _ => by simp [reindexed]
      · exact fun _ hc => hc

/-- A live column is brought to its declared index, and the others stay as they are. The plan is
made from an earlier state of the column, in which it has the same index, and under the same name
unless the engine may have renamed it. -/
theorem sync_index_yields {declared : Column} {current planned : LiveColumn}
    {columns : List Column} {renamed : Bool} (hnames : (live.map LiveColumn.name).Nodup)
    (hcurrent : current ∈ live) (hname : current.name = declared.name)
    (hindex : current.spec.index = planned.spec.index)
    (hplanned : renamed = false → current.indexName = planned.indexName)
    (hmirrors : Mirrors options table initial live s)
    (hcolumns : (live.map LiveColumn.spec).Perm columns) :
    Yields b s (syncIndex b options table declared live) fun p s' =>
      (p.1.map LiveColumn.spec).Perm
        (Column.onNamed declared.name (reindexed options.force declared) columns) ∧
      Mirrors options table initial p.1 s' ∧ KeepsTags declared.name live p.1 ∧
      Follows b.dialect
        (planIndex b.dialect options table renamed declared planned) p.2 := by
  have hsame : ∀ c ∈ columns, c.name = declared.name → c = current.spec := fun c hc hc' =>
    spec_of_name hnames hcurrent (hcolumns.mem_iff.mpr hc) (hc'.trans hname.symm)
  have hfind : live.find? (fun c => c.name = declared.name) = some current := by
    rw [← hname]
    exact find_of_names_nodup LiveColumn.name hnames hcurrent
  rw [sync_index_some hfind]
  unfold planIndex
  dsimp only
  rw [← hindex]
  by_cases hequal : current.spec.index = declared.index
  · rw [if_pos hequal, if_pos hequal]
    refine Yields.pure ⟨hcolumns.trans (.of_eq ?_), hmirrors, keeps_tags_of_eq rfl, .nil⟩
    refine (Column.on_named_same fun c hc hc' => ?_).symm
    rw [hsame c hc hc', reindexed, ← hequal]
    split <;> rfl
  · rw [if_neg hequal, if_neg hequal]
    cases hindexed : current.spec.index.isIndexed with
    | false =>
        refine (add_index_yields false hnames hcurrent hname
          (fun _ => not_indexed_iff.mp hindexed) hmirrors hcolumns).mono fun p s' h => ?_
        obtain ⟨hperm, hs', htags, hlog⟩ := h
        refine ⟨hperm.trans (.of_eq ?_), hs', htags, hlog⟩
        refine Column.on_named_congr fun c hc hc' => ?_
        rw [hsame c hc hc', reindexed, hindexed]
        rfl
    | true =>
        refine replace_index_yields hnames hcurrent hname hindexed ?_ hmirrors hcolumns
        cases renamed with
        | true => exact .indexDrop _ _ _
        | false =>
            rw [hplanned rfl]
            exact .exactly _

end Synchronization

end SchemaKeeper

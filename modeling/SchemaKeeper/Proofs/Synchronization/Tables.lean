import SchemaKeeper.Proofs.Synchronization.Tracking

/-!
# Synchronizing tables

A table is brought about column by column. `Tracks` is what holds between two declared columns: the
tracked columns mirror the engine and are laid out as the columns before say, and index names are
still the initial ones where the engine had no occasion to change them. `sync_columns_yields`
carries it along all declared columns, and `sync_tables_yields` gives the log and the structure that
a run over all tables ends with.
-/

namespace SchemaKeeper

namespace Synchronization

open Session

variable {σ : Type} {b : Backend σ} {s : Structure} {options : SyncOptions} {table : Table}
  {initial : Structure} {planned live : List LiveColumn} {before : List Column} {declared : Column}

theorem kept_names_nodup {force : Bool} (h : (planned.map LiveColumn.name).Nodup) :
    ((kept force table planned).map LiveColumn.name).Nodup := by
  unfold kept
  split
  · exact h.sublist (List.filter_sublist.map _)
  · exact h

theorem mem_planned_of_kept {force : Bool} {c : LiveColumn} (h : c ∈ kept force table planned) :
    c ∈ planned := by
  unfold kept at h
  split at h
  · exact List.mem_of_mem_filter h
  · exact h

/-- A live column that is declared is kept. -/
theorem mem_kept {force : Bool} {c : LiveColumn} (hc : c ∈ planned)
    (hdeclared : declared ∈ table.columns) (hname : c.name = declared.name) :
    c ∈ kept force table planned := by
  unfold kept
  split
  · refine List.mem_filter.mpr ⟨hc, ?_⟩
    rw [hname]
    exact List.contains_iff_mem.mpr (List.mem_map_of_mem hdeclared)
  · exact hc

/-- What holds of a table after the columns before were brought about, where `planned` are the user
columns that it had at first. -/
structure Tracks (options : SyncOptions) (table : Table) (initial : Structure)
    (planned : List LiveColumn) (before : List Column) (live : List LiveColumn) (s : Structure) :
    Prop where
  mirrors : Mirrors options table.name initial live s
  columns : (live.map LiveColumn.spec).Perm
    (layout options.force ((kept options.force table planned).map LiveColumn.spec) before)
  tagged : renames options planned before = false →
    ∀ c ∈ kept options.force table planned, c.name ∉ before.map Column.name →
      (c.name, c.indexName) ∈ tags live

/-- Live columns have the names of their declared sides. -/
theorem names_perm {columns : List Column} (h : (live.map LiveColumn.spec).Perm columns) :
    (live.map LiveColumn.name).Perm (columns.map Column.name) := by
  refine .trans (.of_eq ?_) (h.map Column.name)
  rw [List.map_map]
  rfl

theorem layout_kept_names_nodup {force : Bool} (hplanned : (planned.map LiveColumn.name).Nodup)
    (hbefore : (before.map Column.name).Nodup) :
    ((layout force ((kept force table planned).map LiveColumn.spec) before).map
      Column.name).Nodup := by
  refine layout_names_nodup ?_ hbefore
  rw [List.map_map]
  exact kept_names_nodup hplanned

namespace Tracks

/-- Names are distinct among tracked columns. -/
theorem names_nodup (h : Tracks options table initial planned before live s)
    (hplanned : (planned.map LiveColumn.name).Nodup) (hbefore : (before.map Column.name).Nodup) :
    (live.map LiveColumn.name).Nodup :=
  (names_perm h.columns).nodup_iff.mpr (layout_kept_names_nodup hplanned hbefore)

/-- A tracked column was there at first or was brought about. -/
theorem mem_names (h : Tracks options table initial planned before live s) {name : String}
    (hname : name ∈ live.map LiveColumn.name) :
    name ∈ planned.map LiveColumn.name ∨ name ∈ before.map Column.name := by
  have hlayout := (names_perm h.columns).mem_iff.mp hname
  rw [layout_names, List.map_map, List.mem_append] at hlayout
  rcases hlayout with hkept | hnew
  · obtain ⟨c, hc, rfl⟩ := List.mem_map.mp hkept
    exact .inl (List.mem_map_of_mem (mem_planned_of_kept hc))
  · exact .inr (List.mem_of_mem_filter hnew)

/-- A live column that no declared one has been brought about for is tracked as it was at first. -/
theorem mem_specs (h : Tracks options table initial planned before live s) {c : LiveColumn}
    (hc : c ∈ kept options.force table planned) (hbefore : c.name ∉ before.map Column.name) :
    ∃ now ∈ live, now.spec = c.spec := by
  exact List.mem_map.mp (h.columns.mem_iff.mpr (mem_layout (List.mem_map_of_mem hc) hbefore))

/-- A planned column that is neither dropped nor settled yet is found among the tracked ones. -/
theorem find_live (h : Tracks options table initial planned before live s)
    (hplanned : (planned.map LiveColumn.name).Nodup) (hbefore : (before.map Column.name).Nodup)
    {current : LiveColumn} (hkept : current ∈ kept options.force table planned)
    (hname : current.name = declared.name) (hfresh : declared.name ∉ before.map Column.name) :
    ∃ now ∈ live, live.find? (fun c => c.name = declared.name) = some now ∧
      now.spec = current.spec ∧ now.name = declared.name := by
  obtain ⟨now, hnow, hspec⟩ := h.mem_specs hkept (by rwa [hname])
  have hnow' : now.name = declared.name := by
    rw [← hname, LiveColumn.name, hspec, LiveColumn.name]
  refine ⟨now, hnow, ?_, hspec, hnow'⟩
  rw [← hnow']
  exact find_of_names_nodup LiveColumn.name (h.names_nodup hplanned hbefore) hnow

end Tracks

/-- One more column renames indexes if it is itself redefined, or if one before it was. -/
theorem renames_snoc : renames options planned (before ++ [declared]) = false ↔
    renames options planned before = false ∧ ∀ c ∈ planned, c.name = declared.name →
      (options.force && !options.dryRun && declared.definitionDiffers c.spec) = false := by
  unfold renames
  cases options.force <;> cases options.dryRun <;> simp [List.any_append]

/-- A declared column that is not live is added behind the one before it. -/
theorem sync_new_column_yields (htracks : Tracks options table initial planned before live s)
    (hbefore : declared.name ∉ before.map Column.name)
    (hreserved : Identifier.isReserved declared.name = false)
    (hnew : declared.name ∉ planned.map LiveColumn.name) :
    Yields b s (syncColumn b options table.name (place before) declared live) fun p s' =>
      Tracks options table initial planned (before ++ [declared]) p.1 s' ∧
      Follows b.dialect
        [⟨.exactly (.addColumn table.name declared (place before)), options.reach⟩] p.2 := by
  have hkept : declared.name ∉
      ((kept options.force table planned).map LiveColumn.spec).map Column.name := by
    rw [List.map_map]
    intro hmem
    obtain ⟨c, hc, hname⟩ := List.mem_map.mp hmem
    exact hnew (List.mem_map.mpr ⟨c, mem_planned_of_kept hc, hname⟩)
  -- What is tracked was planned or declared before, and this column is neither.
  have hfind : live.find? (fun c => c.name = declared.name) = none := by
    rw [List.find?_eq_none]
    intro c hc hname
    rcases htracks.mem_names (List.mem_map_of_mem hc) with hmem | hmem
    · exact hnew (of_decide_eq_true hname ▸ hmem)
    · exact hbefore (of_decide_eq_true hname ▸ hmem)
  rw [sync_column_none hfind]
  have hedit : ((insertAfter (place before) (added b.dialect table.name declared) live).map
      LiveColumn.spec).Perm ((Change.addColumn table.name declared (place before)).edit
        (live.map LiveColumn.spec)) := (insert_after_perm _ _ _).map _
  refine (apply_mirrors htracks.mirrors rfl hedit).bind fun record s' h => Yields.pure ?_
  obtain ⟨rfl, hs'⟩ := h
  refine ⟨⟨hs', ?_, ?_⟩, .cons ⟨.exactly _, by rw [outcome_of_harmless rfl]; rfl⟩ .nil⟩
  · rw [layout_snoc_new hreserved hkept]
    exact (hedit.trans (htracks.columns.cons declared)).trans (List.perm_append_singleton _ _).symm
  · intro hrenames c hc hname
    rw [List.map_append, List.mem_append, not_or] at hname
    have htag := htracks.tagged (renames_snoc.mp hrenames).1 c hc hname.1
    exact ((insert_after_perm _ _ _).map _).mem_iff.mpr (List.mem_cons_of_mem _ htag)

/-- A definition does not change the index that a column has. -/
theorem redefined_index (force : Bool) (declared current : Column) :
    (redefined force declared current).index = current.index := by
  unfold redefined
  split <;> rfl

/-- A declared column that is live is brought to its definition and to its index. -/
theorem sync_live_column_yields {current : LiveColumn}
    (htracks : Tracks options table initial planned before live s)
    (htable : Identifier.IsClean table.name) (hplanned : (planned.map LiveColumn.name).Nodup)
    (hbefore : ((before ++ [declared]).map Column.name).Nodup)
    (hdeclared : declared ∈ table.columns) (hcurrent : current ∈ planned)
    (hname : current.name = declared.name) :
    Yields b s (syncColumn b options table.name (place before) declared live) fun p s' =>
      Tracks options table initial planned (before ++ [declared]) p.1 s' ∧
      Follows b.dialect
        (planDefinition options table.name
            (layout options.force ((kept options.force table planned).map LiveColumn.spec) before)
            declared current.spec
          ++ planIndex b.dialect options table.name
            (renames options planned (before ++ [declared])) declared current) p.2 := by
  rw [List.map_append, List.nodup_append] at hbefore
  obtain ⟨hbefore, -, hfresh⟩ := hbefore
  have hfresh : declared.name ∉ before.map Column.name := fun hmem =>
    hfresh declared.name hmem declared.name (List.mem_singleton_self _) rfl
  have hkept : current ∈ kept options.force table planned := mem_kept hcurrent hdeclared hname
  have hnames := htracks.names_nodup hplanned hbefore
  obtain ⟨now, hnow, hfind, hspec, hnow'⟩ :=
    htracks.find_live hplanned hbefore hkept hname hfresh
  rw [sync_column_some hfind]
  -- First the definition, after which the index is still the one that was planned.
  refine (redefine_yields htable hnames hnow hnow' htracks.mirrors htracks.columns).bind
    fun p mid h => ?_
  obtain ⟨hcolumns, hmid, htags, hdefinition⟩ := h
  have hredefined : ∀ c, c.name = declared.name →
      (redefined options.force declared c).name = declared.name := fun c hc => by
    rw [redefined_name options.force declared c hc.symm, hc]
  have hnames' : (p.1.map LiveColumn.name).Nodup := by
    rw [(names_perm hcolumns).nodup_iff, Column.on_named_names hredefined]
    exact layout_kept_names_nodup hplanned hbefore
  obtain ⟨now', hmem', hspec'⟩ : ∃ now' ∈ p.1,
      now'.spec = redefined options.force declared current.spec := by
    refine List.mem_map.mp (hcolumns.mem_iff.mpr ?_)
    rw [← hspec]
    refine List.mem_map.mpr ⟨now.spec, htracks.columns.mem_iff.mp (List.mem_map_of_mem hnow), ?_⟩
    exact if_pos hnow'
  have hname' : now'.name = declared.name := by
    rw [LiveColumn.name, hspec', hredefined _ hname]
  have hkeeps : renames options planned (before ++ [declared]) = false → tags p.1 = tags live :=
    fun hrenames => htags (hspec ▸ (renames_snoc.mp hrenames).2 current hcurrent hname)
  -- As long as no definition was applied, the engine had no occasion to rename the index.
  have hplace : renames options planned (before ++ [declared]) = false →
      now'.indexName = current.indexName := by
    intro hrenames
    have htag := htracks.tagged (renames_snoc.mp hrenames).1 current hkept (by rwa [hname])
    rw [← hkeeps hrenames] at htag
    exact index_name_of_tag hnames' hmem' htag (hname'.trans hname.symm)
  have hindex : now'.spec.index = current.spec.index := by rw [hspec', redefined_index]
  refine (sync_index_yields hnames' hmem' hname' hindex hplace hmid hcolumns).bind
    fun q s' h => Yields.pure ?_
  obtain ⟨hcolumns', hs', htags', hlog⟩ := h
  refine ⟨⟨hs', ?_, ?_⟩, ?_⟩
  · rw [layout_snoc_live hfresh ?_]
    · refine hcolumns'.trans (.of_eq ?_)
      rw [Column.on_named_on_named hredefined]
      refine Column.on_named_congr fun c _ _ => ?_
      rw [Function.comp_apply, settled]
    · rw [List.map_map]
      exact List.mem_map.mpr ⟨current, hkept, hname⟩
  · intro hrenames c hc hcname
    rw [List.map_append, List.mem_append, not_or] at hcname
    have htag := htracks.tagged (renames_snoc.mp hrenames).1 c hc hcname.1
    rw [← hkeeps hrenames] at htag
    exact htags' _ htag fun heq => hcname.2 (List.mem_singleton.mpr heq)
  · rw [hspec] at hdefinition
    exact hdefinition.append hlog

/-- What the live columns of a table must be like for its synchronization: distinct names that are
not reserved, and clean names where a column may go. -/
structure Settleable (table : Table) (planned : List LiveColumn) : Prop where
  names : (planned.map LiveColumn.name).Nodup
  unreserved : ∀ c ∈ planned, Identifier.isReserved c.name = false
  clean : ∀ c ∈ stale table planned, Identifier.IsClean c.name ∧
    ∀ index, c.indexName = some index → Identifier.IsClean index

/-- One declared column that is not reserved is brought about as planned. -/
theorem sync_column_yields (htracks : Tracks options table initial planned before live s)
    (htable : Identifier.IsClean table.name) (hplanned : (planned.map LiveColumn.name).Nodup)
    (hbefore : ((before ++ [declared]).map Column.name).Nodup)
    (hdeclared : declared ∈ table.columns)
    (hreserved : Identifier.isReserved declared.name = false) :
    Yields b s (syncColumn b options table.name (place before) declared live) fun p s' =>
      Tracks options table initial planned (before ++ [declared]) p.1 s' ∧
      Follows b.dialect (planColumn b.dialect options table planned before declared) p.2 := by
  unfold planColumn
  rw [hreserved, if_neg Bool.false_ne_true]
  cases hfind : planned.find? fun c => c.name = declared.name with
  | none =>
      refine sync_new_column_yields htracks ?_ hreserved ?_
      · rw [List.map_append, List.nodup_append] at hbefore
        exact fun hmem => hbefore.2.2 _ hmem declared.name (List.mem_singleton_self _) rfl
      · intro hmem
        obtain ⟨c, hc, hname⟩ := List.mem_map.mp hmem
        exact List.find?_eq_none.mp hfind c hc (decide_eq_true hname)
  | some current =>
      exact sync_live_column_yields htracks htable hplanned hbefore hdeclared
        (List.mem_of_find?_eq_some hfind) (name_of_find LiveColumn.name hfind)

/-- A reserved column that is declared leaves everything as it is. -/
theorem Tracks.snoc_reserved (h : Tracks options table initial planned before live s)
    (hplanned : ∀ c ∈ planned, Identifier.isReserved c.name = false)
    (hreserved : Identifier.isReserved declared.name = true) :
    Tracks options table initial planned (before ++ [declared]) live s := by
  refine ⟨h.mirrors, ?_, ?_⟩
  · rw [layout_snoc_reserved hreserved]
    · exact h.columns
    · rw [List.map_map]
      intro hmem
      obtain ⟨c, hc, hname⟩ := List.mem_map.mp hmem
      have hfree := hplanned c (mem_planned_of_kept hc)
      rw [show c.name = declared.name from hname, hreserved] at hfree
      cases hfree
  · intro hrenames c hc hname
    rw [List.map_append, List.mem_append, not_or] at hname
    exact h.tagged (renames_snoc.mp hrenames).1 c hc hname.1

theorem place_snoc_reserved (before : List Column)
    (hreserved : Identifier.isReserved declared.name = true) :
    place (before ++ [declared]) = place before := by
  simp [place, hreserved]

theorem place_snoc (before : List Column)
    (hreserved : Identifier.isReserved declared.name = false) :
    place (before ++ [declared]) = declared.name := by
  simp [place, hreserved]

/-- Declared columns are brought about as planned, each after those before it. -/
theorem sync_columns_yields {rest : List Column} (hsplit : before ++ rest = table.columns)
    (htracks : Tracks options table initial planned before live s)
    (htable : Identifier.IsClean table.name) (hplanned : Settleable table planned)
    (hcolumns : (table.columns.map Column.name).Nodup) :
    Yields b s (syncColumns b options table.name (place before) rest live) fun log s' =>
      (∃ live', Tracks options table initial planned table.columns live' s') ∧
      Follows b.dialect (planColumns b.dialect options table planned before rest) log := by
  -- On the columns that are left, as `before` takes up one after another.
  induction rest generalizing before live s with
  | nil =>
      rw [List.append_nil] at hsplit
      subst hsplit
      exact Yields.pure ⟨⟨live, htracks⟩, .nil⟩
  | cons declared rest ih =>
      have hsplit' : (before ++ [declared]) ++ rest = table.columns := by
        rw [List.append_assoc, List.singleton_append, hsplit]
      rw [sync_columns_cons, planColumns]
      cases hreserved : Identifier.isReserved declared.name with
      | true =>
          have hskip : planColumn b.dialect options table planned before declared = [] :=
            if_pos hreserved
          rw [if_pos rfl, hskip, List.nil_append, ← place_snoc_reserved before hreserved]
          exact ih hsplit' (htracks.snoc_reserved hplanned.unreserved hreserved)
      | false =>
          have hbefore : ((before ++ [declared]).map Column.name).Nodup := by
            rw [← hsplit', List.map_append] at hcolumns
            exact hcolumns.of_append_left
          have hdeclared : declared ∈ table.columns := by
            rw [← hsplit]
            exact List.mem_append_right _ List.mem_cons_self
          rw [if_neg Bool.false_ne_true]
          refine (sync_column_yields htracks htable hplanned.names hbefore hdeclared
            hreserved).bind fun p mid h => ?_
          obtain ⟨hmid, hlog⟩ := h
          rw [← place_snoc before hreserved]
          refine (ih hsplit' hmid).bind fun records s' h => Yields.pure ?_
          exact ⟨h.1, hlog.append h.2⟩

/-- A table is there before its columns are looked at, unless a dry run would create it. -/
theorem ensure_table_yields {table : String} {present : Bool}
    (hpresent : present = (s table).isSome) :
    Yields b s (ensureTable b options table present) fun log s' =>
      (∀ other ≠ table, s' other = s other) ∧ (options.dryRun = true → s' = s) ∧
      ((!present && options.dryRun) = false → s' table = some ((s table).getD [])) ∧
      Follows b.dialect
        (if (s table).isNone then [⟨.exactly (.createTable table), options.reach⟩] else [])
        log := by
  unfold ensureTable
  cases hs : s table with
  | some live =>
      rw [hs] at hpresent
      subst hpresent
      exact Yields.pure ⟨fun _ _ => rfl, fun _ => rfl, fun _ => hs, .nil⟩
  | none =>
      rw [hs] at hpresent
      subst hpresent
      have hreach : outcomeOf options (.createTable table) = options.reach :=
        outcome_of_harmless rfl
      refine (apply_yields (.createTable table)).bind fun record s' h => Yields.pure ?_
      obtain ⟨rfl, heffect⟩ := h
      have hentry : Entry.Matches b.dialect ⟨.exactly (.createTable table), options.reach⟩
          (.of b.dialect (.createTable table) (outcomeOf options (.createTable table))) :=
        ⟨.exactly _, by rw [hreach]; rfl⟩
      rw [hreach, SyncOptions.reach] at heffect
      cases hdry : options.dryRun with
      | true =>
          rw [hdry] at heffect
          cases heffect
          exact ⟨fun _ _ => rfl, fun _ => rfl, (fun h => nomatch h), .cons hentry .nil⟩
      | false =>
          rw [hdry] at heffect
          obtain ⟨⟨columns, hcolumns, hedited⟩, hothers⟩ := heffect
          refine ⟨hothers, (fun h => nomatch h), fun _ => ?_, .cons hentry .nil⟩
          rw [Change.table] at hcolumns
          rw [hcolumns, Option.getD_none, List.map_eq_nil_iff.mp hedited.eq_nil]

/-- What a synchronization makes of the user columns that a table has, if it exists: with the table
brought about if anything is executed at all. -/
structure Settled (options : SyncOptions) (table : Table) (old new : Option (List LiveColumn)) :
    Prop where
  untouched : options.dryRun = true → new = old
  reached : options.dryRun = false → ∃ now, new = some now ∧
    (now.map LiveColumn.spec).Perm (layout options.force
      ((kept options.force table (old.getD [])).map LiveColumn.spec) table.columns)

/-- The columns that go are the stale ones, so that the kept ones stay. -/
theorem filter_stale (table : Table) (planned : List LiveColumn) :
    (planned.filter fun c => !((stale table planned).map LiveColumn.name).contains c.name)
      = planned.filter fun c => (table.columns.map Column.name).contains c.name := by
  refine List.filter_congr fun c hc => ?_
  cases hdeclared : (table.columns.map Column.name).contains c.name with
  | true =>
      rw [Bool.not_eq_true', ← Bool.not_eq_true, List.contains_iff_mem]
      intro hstale
      obtain ⟨d, hd, hname⟩ := List.mem_map.mp hstale
      have hd := (List.mem_filter.mp hd).2
      rw [hname, hdeclared] at hd
      cases hd
  | false =>
      rw [Bool.not_eq_false', List.contains_iff_mem]
      exact List.mem_map_of_mem (List.mem_filter.mpr ⟨hc, by rw [hdeclared]; rfl⟩)

/-- A run starts from the columns that the table has; a dry run does not read a table that it would
have created, which has none. -/
theorem live_columns_yields {table : String} {present : Bool} {columns : List LiveColumn}
    (htable : Identifier.IsClean table)
    (hthere : (!present && options.dryRun) = false → s table = some columns)
    (hwould : (!present && options.dryRun) = true → columns = []) :
    Yields b s (liveColumns b options table present) fun live s' => s' = s ∧ live = columns := by
  unfold liveColumns
  cases hdry : !present && options.dryRun with
  | true => exact Yields.pure ⟨rfl, (hwould hdry).symm⟩
  | false =>
      refine (Yields.user_columns (Identifier.sanitize_clean htable)).mono fun live s' h => ?_
      exact ⟨h.1, h.2 _ (hthere hdry)⟩

/-- Once the stale columns were dropped, the declared ones can be brought about. -/
theorem drop_stale_yields (hplanned : Settleable table planned)
    (hmirrors : Mirrors options table.name initial planned s) :
    Yields b s (dropAll b options table.name (stale table planned) planned) fun p s' =>
      Tracks options table initial planned [] p.1 s' ∧
      Follows b.dialect ((stale table planned).map fun c =>
        ⟨.exactly (.dropColumn table.name c.name c.indexName), options.gate⟩) p.2 := by
  refine (drop_all_yields hplanned.clean hmirrors).mono fun p s' h => ?_
  obtain ⟨hkept, hmirrors, hdropped⟩ := h
  have hkept : p.1 = kept options.force table planned := by
    rw [hkept, filter_stale]
    rfl
  refine ⟨⟨hmirrors, ?_, fun _ c hc _ => ?_⟩, hdropped⟩
  · rw [layout_nil, hkept]
  · rw [hkept]
    exact List.mem_map_of_mem hc

/-- What the creation of a missing table leaves is what a run starts from. -/
theorem mirrors_of_ensured {table : String} {mid : Structure}
    (hothers : ∀ other ≠ table, mid other = s other) (hdry : options.dryRun = true → mid = s)
    (hthere : options.dryRun = false → mid table = some ((s table).getD [])) :
    Mirrors options table s ((s table).getD []) mid :=
  ⟨hothers, fun h => congrFun (hdry h) table, fun h => ⟨_, hthere h, .refl _⟩⟩

/-- One declared table is brought about as planned. -/
theorem sync_table_yields {present : Bool} (hpresent : present = (s table.name).isSome)
    (htable : Identifier.IsClean table.name)
    (hplanned : Settleable table ((s table.name).getD []))
    (hcolumns : (table.columns.map Column.name).Nodup) :
    Yields b s (syncTable b options table present) fun log s' =>
      (∀ other ≠ table.name, s' other = s other) ∧
      Settled options table (s table.name) (s' table.name) ∧
      Follows b.dialect (planTable b.dialect options table (s table.name)) log := by
  rw [sync_table_eq]
  refine (ensure_table_yields hpresent).bind fun created mid h => ?_
  obtain ⟨hothers, hdry, hthere, hcreated⟩ := h
  refine (live_columns_yields htable hthere fun hwould => ?_).bind fun live s₁ h => ?_
  · rw [Bool.and_eq_true, Bool.not_eq_true', hpresent, Option.isSome_eq_false_iff] at hwould
    rw [Option.isNone_iff_eq_none.mp hwould.1]
    rfl
  obtain ⟨rfl, rfl⟩ := h
  have hmirrors : Mirrors options table.name s ((s table.name).getD []) s₁ :=
    mirrors_of_ensured hothers hdry fun h => hthere (by rw [h, Bool.and_false])
  refine (drop_stale_yields hplanned hmirrors).bind fun p s₂ h => ?_
  obtain ⟨htracks, hdropped⟩ := h
  refine (sync_columns_yields (List.nil_append _) htracks htable hplanned hcolumns).bind
    fun synced s₃ h => Yields.pure ?_
  obtain ⟨⟨live, hlive⟩, hsynced⟩ := h
  refine ⟨hlive.mirrors.others, ⟨hlive.mirrors.untouched, fun h => ?_⟩,
    (hcreated.append hdropped).append hsynced⟩
  obtain ⟨now, hnow, hperm⟩ := hlive.mirrors.engine h
  exact ⟨now, hnow, hperm.trans hlive.columns⟩

/-- What a structure must be like for the synchronization of declared tables. -/
structure Ready (s : Structure) (tables : List Table) : Prop where
  names : (tables.map Table.name).Nodup
  clean : ∀ table ∈ tables, Identifier.IsClean table.name
  columns : ∀ table ∈ tables, (table.columns.map Column.name).Nodup
  settleable : ∀ table ∈ tables, Settleable table ((s table.name).getD [])

/-- Once a table was brought about, it is known to exist; of the others the same is known. -/
theorem contains_other {existing : List String} {name other : String} (h : other ≠ name) :
    (if existing.contains name then existing else existing ++ [name]).contains other =
      existing.contains other := by
  split
  · rfl
  · simp [h]

section Rest

variable {rest : List Table} {existing : List String} {mid : Structure}
  (h : Ready s (table :: rest)) (hothers : ∀ other ≠ table.name, mid other = s other)

include h hothers

/-- Names are distinct, so that the other tables are as they were at first. -/
theorem Ready.same : ∀ other ∈ rest, mid other.name = s other.name := fun other hother =>
  hothers other.name fun heq =>
    (List.nodup_cons.mp h.names).1 (heq ▸ List.mem_map_of_mem hother)

/-- After one table the others can still be brought about. -/
theorem Ready.others : Ready mid rest :=
  ⟨(List.nodup_cons.mp h.names).2, fun t ht => h.clean t (List.mem_cons_of_mem _ ht),
    fun t ht => h.columns t (List.mem_cons_of_mem _ ht),
    fun t ht => h.same hothers t ht ▸ h.settleable t (List.mem_cons_of_mem _ ht)⟩

/-- The list of existing tables stays right for the other tables. -/
theorem Ready.listed
    (hexisting : ∀ t ∈ table :: rest, existing.contains t.name = (s t.name).isSome) :
    ∀ t ∈ rest, (if existing.contains table.name then existing
      else existing ++ [table.name]).contains t.name = (mid t.name).isSome := by
  intro t ht
  have hne : t.name ≠ table.name := fun heq =>
    (List.nodup_cons.mp h.names).1 (heq ▸ List.mem_map_of_mem ht)
  rw [contains_other hne, h.same hothers t ht, hexisting t (List.mem_cons_of_mem _ ht)]

end Rest

/-- Declared tables are brought about as planned, and no other table is touched. -/
theorem sync_tables_yields {tables : List Table} {existing : List String} (h : Ready s tables)
    (hexisting : ∀ table ∈ tables, existing.contains table.name = (s table.name).isSome) :
    Yields b s (syncTables b options tables existing) fun log s' =>
      (∀ other ∉ tables.map Table.name, s' other = s other) ∧
      (∀ table ∈ tables, Settled options table (s table.name) (s' table.name)) ∧
      Follows b.dialect (plan b.dialect options s tables) log := by
  induction tables generalizing existing s with
  | nil => exact Yields.pure ⟨fun _ _ => rfl, List.forall_mem_nil _, .nil⟩
  | cons table rest ih =>
      rw [sync_tables_cons]
      refine (sync_table_yields (hexisting table List.mem_cons_self)
        (h.clean table List.mem_cons_self) (h.settleable table List.mem_cons_self)
        (h.columns table List.mem_cons_self)).bind fun records mid hmid => ?_
      obtain ⟨hothers, hsettled, hlog⟩ := hmid
      have hsame := h.same hothers
      refine (ih (h.others hothers) (h.listed hothers hexisting)).bind
        fun others s' hs' => Yields.pure ?_
      obtain ⟨hothers', hsettled', hlog'⟩ := hs'
      refine ⟨fun other hother => ?_, List.forall_mem_cons.mpr ⟨?_, fun t ht => ?_⟩, ?_⟩
      · rw [List.map_cons, List.mem_cons, not_or] at hother
        rw [hothers' other hother.2, hothers other hother.1]
      · rwa [hothers' table.name (List.nodup_cons.mp h.names).1]
      · rw [← hsame t ht]
        exact hsettled' t ht
      · have hplan : plan b.dialect options s rest = plan b.dialect options mid rest :=
          List.flatMap_congr fun t ht => by rw [hsame t ht]
        rw [plan, List.flatMap_cons, ← plan, hplan]
        exact hlog.append hlog'

end Synchronization

/-- A run over a schema does what the plan says, and leaves the tables that it declares brought
about and all others as they were. -/
theorem Session.update_schema_yields {σ : Type} {b : Backend σ} {s : Structure} {schema : Schema}
    {options : SyncOptions} (h : Synchronization.Ready s schema.tables) :
    Yields b s (updateSchema b schema options) fun log s' =>
      (∀ other ∉ schema.tables.map Table.name, s' other = s other) ∧
      (∀ table ∈ schema.tables,
        Synchronization.Settled options table (s table.name) (s' table.name)) ∧
      Synchronization.Follows b.dialect
        (Synchronization.plan b.dialect options s schema.tables) log := by
  unfold updateSchema
  refine Yields.tables.bind fun existing mid hmid => ?_
  obtain ⟨rfl, hexisting⟩ := hmid
  refine Synchronization.sync_tables_yields h fun table _ => ?_
  rw [Bool.eq_iff_iff, List.contains_iff_mem]
  exact hexisting table.name

end SchemaKeeper

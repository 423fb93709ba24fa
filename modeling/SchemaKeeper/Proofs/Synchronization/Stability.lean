import SchemaKeeper.Proofs.Synchronization.Convergence
import SchemaKeeper.Proofs.Synchronization.Rest

/-!
# Unforced synchronization is stable

A run without force adds what is missing and notes the rest. `Heard` compares its log with the
notices on the structure that it starts from, and `Grown` says what it makes of a table: what stays
noted is untouched and in order, so that the notices are the same afterwards, in the same words. The
structure is then at rest, and further runs give just these notices.
-/

namespace SchemaKeeper

/-- The options of a run that carries out what can lose nothing. -/
def SyncOptions.unforced : SyncOptions := { force := false, dryRun := false }

namespace Synchronization

open Session

variable {σ : Type} {b : Backend σ} {d : Dialect} {table : Table} {planned now : List LiveColumn}

/-- The skipped changes of a log, in words. -/
def skippedWords (log : List ChangeRecord) : List String :=
  (log.filter ChangeRecord.isSkipped).map ChangeRecord.describe

theorem skipped_words_append (first second : List ChangeRecord) :
    skippedWords (first ++ second) = skippedWords first ++ skippedWords second := by
  rw [skippedWords, List.filter_append, List.map_append]
  rfl

/-- The live columns that a run without force leaves as they are: those that are not declared and
those that have an index. -/
def standing (table : Table) (live : List LiveColumn) : List LiveColumn :=
  live.filter fun c =>
    c.spec.index.isIndexed || !(table.columns.map Column.name).contains c.name

/-- The log says what the notices say about skipped changes, and its other changes are made to the
table and touch none of the columns. -/
structure Heard (table : String) (columns : List LiveColumn) (notices log : List ChangeRecord) :
    Prop where
  words : skippedWords log = notices.map ChangeRecord.describe
  spares : ∀ record ∈ log, record.change.table = table ∧
    (record.outcome = .applied → ∀ c ∈ columns, record.change.touches c.name = false)

namespace Heard

variable {name : String} {columns : List LiveColumn}

theorem nil : Heard name columns [] [] :=
  ⟨rfl, fun _ h => nomatch h⟩

theorem append {first second log log' : List ChangeRecord} (h : Heard name columns first log)
    (h' : Heard name columns second log') : Heard name columns (first ++ second) (log ++ log') := by
  constructor
  · rw [skipped_words_append, h.words, h'.words, List.map_append]
  · exact fun record hrecord => (List.mem_append.mp hrecord).elim (h.spares record)
      (h'.spares record)

/-- A skipped change is heard. -/
theorem skipped {record notice : ChangeRecord} (hskipped : record.isSkipped = true)
    (htable : record.change.table = name) (hwords : record.describe = notice.describe) :
    Heard name columns [notice] [record] := by
  constructor
  · rw [skippedWords, List.filter_cons_of_pos hskipped]
    exact congrArg (fun words => [words]) hwords
  · intro record' hrecord
    cases List.mem_singleton.mp hrecord
    exact ⟨htable, fun happlied => absurd happlied (not_applied_of_skipped hskipped)⟩

/-- A notice is heard as it is. -/
theorem cons_noted {notice : ChangeRecord} {notices log : List ChangeRecord}
    (hskipped : notice.isSkipped = true) (htable : notice.change.table = name)
    (h : Heard name columns notices log) :
    Heard name columns (notice :: notices) (notice :: log) :=
  (skipped hskipped htable rfl).append h

/-- An applied change is not heard, and it is made to other columns. -/
theorem applied {change : Change} (htable : change.table = name)
    (hspares : ∀ c ∈ columns, change.touches c.name = false) :
    Heard name columns [] [.of d change .applied] := by
  refine ⟨rfl, fun record hrecord => ?_⟩
  cases List.mem_singleton.mp hrecord
  exact ⟨htable, fun _ => hspares⟩

end Heard

/-- The record of a change that the plan names is settled by the plan. -/
theorem follows_exactly {change : Change} {outcome : Outcome} {log : List ChangeRecord}
    (h : Follows d [⟨.exactly change, outcome⟩] log) : log = [.of d change outcome] := by
  cases h with
  | cons hentry hrest =>
      cases hrest
      obtain ⟨hchange, hrecord⟩ := hentry
      cases hchange
      exact congrArg (fun record => [record]) hrecord

theorem follows_nil {log : List ChangeRecord} (h : Follows d [] log) : log = [] := by
  cases h
  rfl

theorem follows_append {first second : List Entry} {log : List ChangeRecord}
    (h : Follows d (first ++ second) log) :
    ∃ log₁ log₂, log = log₁ ++ log₂ ∧ Follows d first log₁ ∧ Follows d second log₂ := by
  induction first generalizing log with
  | nil => exact ⟨[], log, rfl, .nil, h⟩
  | cons entry rest ih =>
      cases h with
      | cons hentry hrest =>
          obtain ⟨log₁, log₂, rfl, hfirst, hsecond⟩ := ih hrest
          exact ⟨_ :: log₁, log₂, rfl, .cons hentry hfirst, hsecond⟩

/-- Without force a definition that the plan expects is only noted. -/
theorem heard_definition {name : String} {columns : List Column} {standing : List LiveColumn}
    {declared : Column} {current : LiveColumn} {live : List LiveColumn} {log : List ChangeRecord}
    (h : Follows d (planDefinition .unforced name columns declared current.spec) log) :
    Heard name standing (definitionNotices d name declared current live) log := by
  unfold planDefinition at h
  unfold definitionNotices
  cases hdiffers : declared.definitionDiffers current.spec with
  | false =>
      rw [hdiffers] at h
      cases follows_nil h
      exact .nil
  | true =>
      rw [hdiffers] at h
      cases h with
      | @cons _ record _ _ hentry hrest =>
          cases hrest
          obtain ⟨hchange, hrecord⟩ := hentry
          rw [hrecord]
          generalize record.change = change at hchange
          cases hchange
          -- The two changes may list other columns, of which the words say nothing.
          exact .skipped rfl rfl rfl

/-- Without force an index that stays is only noted, and one is added to a column without. -/
theorem heard_index {name : String} {standing : List LiveColumn} {declared : Column}
    {current : LiveColumn} {log : List ChangeRecord}
    (hfree : current.spec.index.isIndexed = false → ∀ c ∈ standing, c.name ≠ declared.name)
    (h : Follows d (planIndex d .unforced name false declared current) log) :
    Heard name standing (indexNotices d name declared current) log := by
  unfold planIndex at h
  unfold indexNotices
  dsimp only at h
  by_cases hequal : current.spec.index = declared.index
  · rw [if_pos hequal] at h ⊢
    cases follows_nil h
    exact .nil
  · rw [if_neg hequal] at h ⊢
    cases hindexed : current.spec.index.isIndexed with
    | false =>
        rw [hindexed] at h
        cases hnew : declared.index.isIndexed with
        | false =>
            rw [hnew] at h
            cases follows_nil h
            exact .nil
        | true =>
            rw [hnew] at h
            cases follows_exactly h
            exact .applied rfl fun c hc => decide_eq_false (hfree hindexed c hc).symm
    | true =>
        rw [hindexed] at h
        obtain ⟨dropped, added, rfl, hdrop, hadd⟩ := follows_append h
        cases follows_exactly hdrop
        refine .cons_noted rfl rfl ?_
        cases hnew : declared.index.isIndexed with
        | false =>
            rw [hnew] at hadd
            cases follows_nil hadd
            exact .nil
        | true =>
            rw [hnew] at hadd
            cases follows_exactly hadd
            exact .cons_noted rfl rfl .nil

/-- Without force a declared column is noted unless it is new. -/
theorem heard_column {before : List Column} {declared : Column} {log : List ChangeRecord}
    (hnames : (planned.map LiveColumn.name).Nodup) (hdeclared : declared ∈ table.columns)
    (h : Follows d (planColumn d .unforced table planned before declared) log) :
    Heard table.name (standing table planned) (columnNotices d table.name planned declared)
      log := by
  unfold planColumn at h
  unfold columnNotices
  cases hreserved : Identifier.isReserved declared.name with
  | true =>
      rw [hreserved, if_pos rfl] at h
      cases follows_nil h
      exact .nil
  | false =>
      rw [hreserved, if_neg Bool.false_ne_true] at h
      rw [if_neg Bool.false_ne_true]
      cases hfind : planned.find? fun c => c.name = declared.name with
      | none =>
          rw [hfind] at h
          cases follows_exactly h
          refine .applied rfl fun c hc => decide_eq_false fun hname => ?_
          refine List.find?_eq_none.mp hfind c (List.mem_of_mem_filter hc) ?_
          exact decide_eq_true hname.symm
      | some current =>
          rw [hfind] at h
          obtain ⟨defined, indexed, rfl, hdefinition, hindex⟩ := follows_append h
          refine (heard_definition hdefinition).append
            (heard_index (fun hfree c hc hname => ?_) hindex)
          -- The one live column of the name is declared and has no index.
          have hcurrent : current.name = declared.name := name_of_find LiveColumn.name hfind
          obtain rfl : c = current := List.inj_on_of_nodup_map hnames (List.mem_of_mem_filter hc)
            (List.mem_of_find?_eq_some hfind) (hname.trans hcurrent.symm)
          have hstanding := (List.mem_filter.mp hc).2
          rw [hfree, Bool.false_or, Bool.not_eq_true', ← Bool.not_eq_true,
            List.contains_iff_mem] at hstanding
          exact hstanding (List.mem_map.mpr ⟨declared, hdeclared, hname.symm⟩)

theorem heard_columns {before columns : List Column} {log : List ChangeRecord}
    (hnames : (planned.map LiveColumn.name).Nodup) (hcolumns : columns ⊆ table.columns)
    (h : Follows d (planColumns d .unforced table planned before columns) log) :
    Heard table.name (standing table planned)
      (columns.flatMap (columnNotices d table.name planned)) log := by
  induction columns generalizing before log with
  | nil =>
      cases follows_nil h
      exact .nil
  | cons declared rest ih =>
      obtain ⟨hdeclared, hrest⟩ := List.cons_subset.mp hcolumns
      obtain ⟨first, others, rfl, hfirst, hothers⟩ := follows_append h
      rw [List.flatMap_cons]
      exact (heard_column hnames hdeclared hfirst).append (ih hrest hothers)

/-- Without force columns that would go are only noted. -/
theorem heard_drops {name : String} {standing doomed : List LiveColumn} {log : List ChangeRecord}
    (h : Follows d (doomed.map fun c =>
      ⟨.exactly (.dropColumn name c.name c.indexName), SyncOptions.unforced.gate⟩) log) :
    Heard name standing (doomed.map (dropNotice d name)) log := by
  induction doomed generalizing log with
  | nil =>
      cases follows_nil h
      exact .nil
  | cons c rest ih =>
      rw [List.map_cons, ← List.singleton_append] at h
      obtain ⟨first, others, rfl, hfirst, hothers⟩ := follows_append h
      cases follows_exactly hfirst
      exact .cons_noted rfl rfl (ih hothers)

/-- Without force a table is noted unless it is new. -/
theorem heard_table {present : Option (List LiveColumn)} {log : List ChangeRecord}
    (hnames : ((present.getD []).map LiveColumn.name).Nodup)
    (h : Follows d (planTable d .unforced table present) log) :
    Heard table.name (standing table (present.getD []))
      (tableNotices d table (present.getD [])) log := by
  unfold planTable at h
  obtain ⟨first, synced, rfl, hfirst, hsynced⟩ := follows_append h
  obtain ⟨created, dropped, rfl, hcreated, hdropped⟩ := follows_append hfirst
  have hcreation : Heard table.name (standing table (present.getD [])) [] created := by
    cases present with
    | some live =>
        cases follows_nil hcreated
        exact .nil
    | none =>
        cases follows_exactly hcreated
        exact .applied rfl fun _ hc => nomatch hc
  exact (hcreation.append (heard_drops hdropped)).append
    (heard_columns hnames (List.Subset.refl _) hsynced)

/-- Without force the log of a plan says what the notices say, and the applied changes in it leave
the standing columns of each table alone. -/
theorem heard_plan {s : Structure} {tables : List Table} {log : List ChangeRecord}
    (hnames : ∀ table ∈ tables, ((s.columns table.name).map LiveColumn.name).Nodup)
    (h : Follows d (plan d .unforced s tables) log) :
    skippedWords log = (notices d s tables).map ChangeRecord.describe ∧
      ∀ record ∈ log, ∃ table ∈ tables, record.change.table = table.name ∧
        (record.outcome = .applied → ∀ c ∈ standing table (s.columns table.name),
          record.change.touches c.name = false) := by
  induction tables generalizing log with
  | nil =>
      cases follows_nil h
      exact ⟨rfl, fun _ h => nomatch h⟩
  | cons table rest ih =>
      obtain ⟨htable, hrest⟩ := List.forall_mem_cons.mp hnames
      obtain ⟨first, others, rfl, hfirst, hothers⟩ := follows_append h
      have hheard := heard_table htable hfirst
      obtain ⟨hwords, hspares⟩ := ih hrest hothers
      constructor
      · rw [skipped_words_append, hheard.words, hwords, notices, notices, List.flatMap_cons,
          List.map_append]
        rfl
      · intro record hrecord
        rcases List.mem_append.mp hrecord with hrecord | hrecord
        · exact ⟨table, List.mem_cons_self, hheard.spares record hrecord⟩
        · obtain ⟨t, ht, hspares⟩ := hspares record hrecord
          exact ⟨t, List.mem_cons_of_mem _ ht, hspares⟩

/-- What a run without force makes of the columns of a table: they are laid out as planned, and the
standing ones are the same and in order. -/
structure Grown (table : Table) (planned now : List LiveColumn) : Prop where
  specs : (now.map LiveColumn.spec).Perm
    (layout false (planned.map LiveColumn.spec) table.columns)
  standing : (standing table planned).Sublist now

/-- Without force only the index of a column changes, and only if it has none. -/
theorem settled_unforced (declared current : Column) :
    settled false declared current =
      if current.index.isIndexed then current else { current with index := declared.index } := by
  rw [settled, redefined, Bool.and_false, if_neg Bool.false_ne_true, reindexed, Bool.not_false,
    Bool.and_true]

/-- The notices on a definition depend in their words on the declared sides only. -/
theorem definition_words (name : String) (declared : Column) (current : LiveColumn)
    (live : List LiveColumn) :
    (definitionNotices d name declared current live).map ChangeRecord.describe =
      if declared.definitionDiffers current.spec then
        [(Outcome.skipped .destructive).mark ++ (Change.modifyColumn name declared []).describe]
      else [] := by
  unfold definitionNotices
  cases declared.definitionDiffers current.spec <;> rfl

/-- How a declared column that is live after a run without force came to be as it is. -/
inductive CameAbout (planned : List LiveColumn) (declared : Column) (current : LiveColumn) :
    Prop where
  /-- It was not live, and it is now as declared. -/
  | added (hbefore : planned.find? (fun c => c.name = declared.name) = none)
      (hspec : current.spec = declared)
  /-- It had an index, and it is as before. -/
  | stayed (hbefore : planned.find? (fun c => c.name = declared.name) = some current)
      (hindexed : current.spec.index.isIndexed = true)
  /-- It had no index, and it has got the declared one. -/
  | indexed (old : LiveColumn)
      (hbefore : planned.find? (fun c => c.name = declared.name) = some old)
      (hfree : old.spec.index.isIndexed = false)
      (hspec : current.spec = { old.spec with index := declared.index })

namespace Grown

variable (h : Grown table planned now)

include h

theorem names_nodup (hplanned : (planned.map LiveColumn.name).Nodup)
    (hcolumns : (table.columns.map Column.name).Nodup) : (now.map LiveColumn.name).Nodup := by
  refine (names_perm h.specs).nodup_iff.mpr (layout_names_nodup ?_ hcolumns)
  rwa [List.map_map]

/-- What is laid out is there. -/
theorem exists_of_layout {spec : Column}
    (hspec : spec ∈ layout false (planned.map LiveColumn.spec) table.columns) :
    ∃ c ∈ now, c.spec = spec :=
  List.mem_map.mp (h.specs.mem_iff.mpr hspec)

/-- The stale columns are the same as before, in the same order: they are all standing, and as many
as before. -/
theorem stale_eq : stale table now = stale table planned := by
  have hsub : (stale table planned).Sublist (stale table now) := by
    have hstanding : stale table planned =
        stale table (Synchronization.standing table planned) := by
      unfold stale Synchronization.standing
      rw [List.filter_filter]
      refine List.filter_congr fun c _ => ?_
      cases (table.columns.map Column.name).contains c.name <;> simp
    rw [hstanding]
    exact h.standing.filter _
  have hnames : ∀ live : List LiveColumn, (stale table live).length =
      ((live.map LiveColumn.name).filter fun name =>
        !(table.columns.map Column.name).contains name).length := by
    intro live
    rw [List.filter_map, List.length_map]
    rfl
  have hnew : (((table.columns.map Column.name).filter fun name =>
      !Identifier.isReserved name &&
        !((planned.map LiveColumn.spec).map Column.name).contains name).filter fun name =>
          !(table.columns.map Column.name).contains name) = [] := by
    refine List.filter_eq_nil_iff.mpr fun name hname => ?_
    rw [Bool.not_eq_true, Bool.not_eq_false', List.contains_iff_mem]
    exact List.mem_of_mem_filter hname
  refine (hsub.eq_of_length ?_).symm
  rw [hnames, hnames, ((names_perm h.specs).filter _).length_eq, layout_names,
    List.filter_append, hnew, List.append_nil, List.map_map]
  rfl

/-- A declared column is live afterwards. -/
theorem live (hplanned : (planned.map LiveColumn.name).Nodup)
    (hcolumns : (table.columns.map Column.name).Nodup) {declared : Column}
    (hdeclared : declared ∈ table.columns)
    (hreserved : Identifier.isReserved declared.name = false) :
    ∃ current, now.find? (fun c => c.name = declared.name) = some current ∧
      CameAbout planned declared current := by
  have hfind : ∀ c ∈ now, c.name = declared.name →
      now.find? (fun c => c.name = declared.name) = some c := by
    intro c hc hname
    rw [← hname]
    exact find_of_names_nodup LiveColumn.name (h.names_nodup hplanned hcolumns) hc
  cases hbefore : planned.find? fun c => c.name = declared.name with
  | none =>
      have hfresh : declared.name ∉ (planned.map LiveColumn.spec).map Column.name := by
        rw [List.map_map]
        intro hmem
        obtain ⟨c, hc, hname⟩ := List.mem_map.mp hmem
        exact List.find?_eq_none.mp hbefore c hc (decide_eq_true hname)
      have hlayout : declared ∈ layout false (planned.map LiveColumn.spec) table.columns := by
        refine List.mem_append_right _ (List.mem_filter.mpr ⟨hdeclared, ?_⟩)
        simpa [hreserved] using hfresh
      obtain ⟨c, hc, hspec⟩ := h.exists_of_layout hlayout
      exact ⟨c, hfind c hc (congrArg Column.name hspec), .added hbefore hspec⟩
  | some old =>
      have hold := List.mem_of_find?_eq_some hbefore
      have hname : old.name = declared.name := name_of_find LiveColumn.name hbefore
      cases hindexed : old.spec.index.isIndexed with
      | true =>
          have hstanding : old ∈ Synchronization.standing table planned :=
            List.mem_filter.mpr ⟨hold, by rw [hindexed, Bool.true_or]⟩
          exact ⟨old, hfind old (h.standing.subset hstanding) hname, .stayed hbefore hindexed⟩
      | false =>
          have hbrought : brought false table.columns old.spec =
              { old.spec with index := declared.index } := by
            rw [brought, show old.spec.name = declared.name from hname,
              find_of_names_nodup Column.name hcolumns hdeclared]
            dsimp only
            rw [settled_unforced, hindexed, if_neg Bool.false_ne_true]
          have hlayout : { old.spec with index := declared.index } ∈
              layout false (planned.map LiveColumn.spec) table.columns := by
            rw [← hbrought]
            exact List.mem_append_left _ (List.mem_map_of_mem (List.mem_map_of_mem hold))
          obtain ⟨c, hc, hspec⟩ := h.exists_of_layout hlayout
          exact ⟨c, hfind c hc ((congrArg Column.name hspec).trans hname),
            .indexed old hbefore hindexed hspec⟩

theorem at_rest (hplanned : (planned.map LiveColumn.name).Nodup)
    (hcolumns : (table.columns.map Column.name).Nodup) : AtRest table.columns now := by
  intro declared hdeclared hreserved
  obtain ⟨current, hfind, hcame⟩ := h.live hplanned hcolumns hdeclared hreserved
  refine ⟨current, hfind, ?_⟩
  cases hcame with
  | added _ hspec | indexed _ _ _ hspec => exact .inl (by rw [hspec])
  | stayed _ hindexed => exact .inr hindexed

/-- What is noted about a column is in the words in which it was noted before. -/
theorem column_words (hplanned : (planned.map LiveColumn.name).Nodup)
    (hcolumns : (table.columns.map Column.name).Nodup) {declared : Column}
    (hdeclared : declared ∈ table.columns)
    (hreserved : Identifier.isReserved declared.name = false) :
    (columnNotices d table.name now declared).map ChangeRecord.describe =
      (columnNotices d table.name planned declared).map ChangeRecord.describe := by
  obtain ⟨current, hfind, hcame⟩ := h.live hplanned hcolumns hdeclared hreserved
  rw [column_notices_live hreserved hfind, List.map_append, definition_words]
  cases hcame with
  | added hbefore hspec =>
      -- Nothing was noted about a new column, and it is just as declared.
      have hnone : columnNotices d table.name planned declared = [] := by
        unfold columnNotices
        rw [hreserved, if_neg Bool.false_ne_true, hbefore]
      have hindex : current.spec.index = declared.index := by rw [hspec]
      rw [hnone, hspec, definition_differs_self, if_neg Bool.false_ne_true, indexNotices,
        if_pos hindex]
      rfl
  | stayed hbefore =>
      rw [column_notices_live hreserved hbefore, List.map_append, definition_words]
  | indexed old hbefore hfree hspec =>
      -- The definition is the old one, and nothing was noted about a missing index.
      have hindex : current.spec.index = declared.index := by rw [hspec]
      rw [column_notices_live hreserved hbefore, List.map_append, definition_words, hspec,
        indexNotices, if_pos hindex, indexNotices, hfree, if_neg Bool.false_ne_true, ite_self]
      rfl

theorem settleable (hplanned : Settleable table planned)
    (hcolumns : (table.columns.map Column.name).Nodup) : Settleable table now := by
  refine ⟨h.names_nodup hplanned.names hcolumns, fun c hc => ?_, ?_⟩
  · have hname := (names_perm h.specs).mem_iff.mp (List.mem_map_of_mem hc)
    rw [layout_names, List.map_map, List.mem_append] at hname
    rcases hname with hlive | hnew
    · obtain ⟨c', hc', heq⟩ := List.mem_map.mp hlive
      rw [← heq]
      exact hplanned.unreserved c' hc'
    · simpa using (Bool.and_eq_true_iff.mp (List.mem_filter.mp hnew).2).1
  · rw [h.stale_eq]
    exact hplanned.clean

/-- What is noted about a table is in the words in which it was noted before. -/
theorem table_words (hplanned : (planned.map LiveColumn.name).Nodup)
    (hcolumns : (table.columns.map Column.name).Nodup) :
    (tableNotices d table now).map ChangeRecord.describe =
      (tableNotices d table planned).map ChangeRecord.describe := by
  unfold tableNotices
  rw [List.map_append, List.map_append, h.stale_eq, List.map_flatMap, List.map_flatMap]
  congr 1
  refine List.flatMap_congr fun declared hdeclared => ?_
  cases hreserved : Identifier.isReserved declared.name with
  | true =>
      unfold columnNotices
      rw [hreserved, if_pos rfl, if_pos rfl]
  | false => exact h.column_words hplanned hcolumns hdeclared hreserved

end Grown

/-- After a run without force under a steady engine each declared table is as planned, and what was
standing still stands. -/
theorem grown_of_follows {s s' : Structure} {tables : List Table} {events : List Event}
    (hready : Ready s tables) (hsteady : b.ReplaysSteadily s events s')
    (hsettled : ∀ table ∈ tables, Settled .unforced table (s table.name) (s' table.name))
    (hfollows : Follows d (plan d .unforced s tables) (Event.records events)) :
    ∀ table ∈ tables, (s' table.name).isSome = true ∧
      Grown table (s.columns table.name) (s'.columns table.name) := by
  intro table htable
  obtain ⟨-, hspares⟩ := heard_plan (fun t ht => (hready.settleable t ht).names) hfollows
  obtain ⟨now, hnow, hperm⟩ := (hsettled table htable).reached rfl
  have hstands : (standing table (s.columns table.name)).Sublist (s'.columns table.name) := by
    refine hsteady.kept List.filter_sublist fun record hrecord happlied hname => ?_
    obtain ⟨t, ht, hname', hspares⟩ := hspares record (Event.mem_records hrecord)
    obtain rfl : t = table :=
      List.inj_on_of_nodup_map hready.names ht htable (hname'.symm.trans hname)
    exact hspares happlied
  have hcolumns : s'.columns table.name = now := by rw [Structure.columns, hnow, Option.getD_some]
  rw [hcolumns] at hstands ⊢
  exact ⟨by rw [hnow]; rfl, hperm, hstands⟩

/-- A declaration of a text with a unique index, an indexed number and another number. -/
def mixedDocument : Json :=
  .object [("users", .object [
    ("a", .object [("type", .text "TEXT"), ("index", .text "unique")]),
    ("b", .object [("type", .text "INT"), ("index", .bool true)]),
    ("c", .object [("type", .text "INT")])])]

/-- The declared numbers. -/
def mixedIndexed : Column := .ofType "b" "INT" true none .nonUnique

def mixedNew : Column := .ofType "c" "INT" true none .none

def mixedSchema : Schema :=
  ⟨[⟨"users", [.ofType "a" "TEXT" true none .unique, mixedIndexed, mixedNew]⟩]⟩

/-- A column that is not declared and one of another type and index. -/
def mixedStanding : List LiveColumn :=
  [⟨.ofType "old" "INT" true none .none, none⟩,
    ⟨.ofType "a" "INT" true none .nonUnique, some "ix_a"⟩]

/-- Before the run one number has no index and the other one is missing. -/
def mixedBefore : List LiveColumn :=
  mixedStanding ++ [⟨.ofType "b" "INT" true none .none, none⟩]

def mixedBetween : List LiveColumn := mixedStanding ++ [⟨mixedIndexed, some "index_b"⟩]

def mixedAfter : List LiveColumn := mixedBetween ++ [⟨mixedNew, none⟩]

/-- An engine that describes the table before the first run and twice after it. -/
def mixedHandle : Handle Script :=
  .start (some ⟨"localhost", none, "", "", "app"⟩) []
    { fetches := [.ok usersRows, .ok usersRows, .ok usersRows]
      describes := [.ok mixedBefore, .ok mixedAfter, .ok mixedAfter] }

theorem mixed_before_well_formed : WellFormed (.only "users" mixedBefore) := by
  intro table live h
  unfold Structure.only at h
  split at h
  · cases h
    refine ⟨by decide, fun c hc => ?_⟩
    simp only [mixedBefore, mixedStanding, List.cons_append, List.nil_append, List.mem_cons,
      List.not_mem_nil, or_false] at hc
    rcases hc with rfl | rfl | rfl
    all_goals
      refine ⟨by decide, by decide, ?_⟩
      rintro index ⟨⟩
    decide
  · cases h

/-- The events of a run that looks at the table and only notes skipped changes. -/
def mixedNoted (columns : List LiveColumn) : List Event :=
  [.called (.fetch "LIST TABLES") (.rows usersRows), .attempted "LIST TABLES" none,
    .called (.describe "users") (.columns columns), .attempted "LIST COLUMNS OF users" none]
  ++ (notices .mysql (.only "users" columns) mixedSchema.tables).map .recorded

/-- Such a run leaves the engine as it is. -/
theorem mixed_noted_steady {columns : List LiveColumn}
    (hcolumns : columns.filter (fun c => !Identifier.isReserved c.name) = columns) :
    (Script.backend .mysql).ReplaysSteadily (.only "users" columns) (mixedNoted columns)
      (.only "users" columns) := by
  refine .of_replays ?_ fun record hrecord => ?_
  · exact .cons (.listed _ _ (users_listed _)) <| .cons (.attempted _ _) <|
      .cons (.described _ _ _ fun _ => users_described hcolumns) <| .cons (.attempted _ _) <|
      replays_skipped fun _ => notices_skipped
  · have hnotice : record ∈ notices .mysql (.only "users" columns) mixedSchema.tables := by
      simpa [mixedNoted] using hrecord
    exact not_applied_of_skipped (notices_skipped hnotice)

/-- The engine is steady during the first run. -/
theorem mixed_run_steady : (Script.backend .mysql).ReplaysSteadily (.only "users" mixedBefore)
    ((Session.updateSchema (Script.backend .mysql) mixedSchema .unforced).trace mixedHandle)
    (.only "users" mixedAfter) := by
  have htrace : (Session.updateSchema (Script.backend .mysql) mixedSchema .unforced).trace
      mixedHandle = .called (.connect ⟨"localhost", none, "", "", "app"⟩) .done ::
        (mixedNoted mixedBefore ++
        [.called (.execute (.ddl (.createIndex "index_b" "users" "b" false))) (.affected 0),
          .attempted "ALTER TABLE users ADD INDEX index_b (b)" none,
          .recorded (.of .mysql (.addIndex "users" "b" .nonUnique) .applied),
          .called (.execute (.ddl (.addColumn "users" mixedNew (some "b") none))) (.affected 0),
          .attempted "ALTER TABLE users ADD c INT NULL AFTER b" none,
          .recorded (.of .mysql (.addColumn "users" mixedNew "b") .applied)]) := by
    decide +kernel
  have hindex : (Change.addIndex "users" "b" .nonUnique).Effect
      (.only "users" mixedBefore) (.only "users" mixedBetween) :=
    Change.effect_only rfl (by decide +kernel)
  have hcolumn : (Change.addColumn "users" mixedNew "b").Effect
      (.only "users" mixedBetween) (.only "users" mixedAfter) :=
    Change.effect_only rfl (by decide +kernel)
  rw [htrace]
  refine .cons (.connected _ _) (fun _ h => nomatch h) (.append (mixed_noted_steady rfl) ?_)
  refine .cons (.executed _ _ _) (fun _ h => nomatch h) ?_
  refine .cons (.attempted _ _) (fun _ h => nomatch h) ?_
  refine .cons (.applied _ _ _ rfl hindex) ?_ ?_
  · rintro _ ⟨⟩ -
    decide
  refine .cons (.executed _ _ _) (fun _ h => nomatch h) ?_
  refine .cons (.attempted _ _) (fun _ h => nomatch h) ?_
  refine .cons (.applied _ _ _ rfl hcolumn) ?_ (.nil _)
  rintro _ ⟨⟩ -
  decide

/-- Two more runs only look at the table and note skipped changes. -/
theorem mixed_again_traces :
    (Session.updateSchema (Script.backend .mysql) mixedSchema .unforced).trace
      ((Session.updateSchema (Script.backend .mysql) mixedSchema .unforced).run mixedHandle).2
        = mixedNoted mixedAfter ∧
    (Session.updateSchema (Script.backend .mysql) mixedSchema .unforced).trace
      ((Session.updateSchema (Script.backend .mysql) mixedSchema .unforced).run
        ((Session.updateSchema (Script.backend .mysql) mixedSchema .unforced).run mixedHandle).2).2
        = mixedNoted mixedAfter := by
  decide +kernel

end Synchronization

namespace Session

open Synchronization

variable {σ : Type}

/-- Under an engine that is steady during a first run without force and faithful during two more,
the runs succeed. The second one executes nothing, and its log says what the log of the first one
says about skipped changes, in the same words and order. The log of the third one is that of the
second one. -/
theorem update_schema_unforced_stable (b : Backend σ) (document : Json) (schema : Schema)
    (initial once twice thrice : Structure) (db : Handle σ)
    (hschema : Schema.ofJson document = .ok schema)
    (htables : (schema.tables.map Table.name).Nodup)
    (hcolumns : ∀ table ∈ schema.tables, (table.columns.map Column.name).Nodup)
    (hinitial : WellFormed initial) (hready : db.CanConnect)
    (hfirst : b.ReplaysSteadily initial ((updateSchema b schema .unforced).trace db) once)
    (hsecond : b.Replays once ((updateSchema b schema .unforced).trace
      ((updateSchema b schema .unforced).run db).2) twice)
    (hthird : b.Replays twice ((updateSchema b schema .unforced).trace
      ((updateSchema b schema .unforced).run ((updateSchema b schema .unforced).run db).2).2)
        thrice) :
    ∃ first second,
      ((updateSchema b schema .unforced).run db).1 = .ok first ∧
      ((updateSchema b schema .unforced).run ((updateSchema b schema .unforced).run db).2).1
        = .ok second ∧
      Event.commands ((updateSchema b schema .unforced).trace
        ((updateSchema b schema .unforced).run db).2) = [] ∧
      second.map ChangeRecord.describe =
        (first.filter ChangeRecord.isSkipped).map ChangeRecord.describe ∧
      ((updateSchema b schema .unforced).run ((updateSchema b schema .unforced).run
        ((updateSchema b schema .unforced).run db).2).2).1 = .ok second := by
  have hclean := Schema.clean_of_of_json hschema
  have hstart : Ready initial schema.tables :=
    ⟨htables, hclean, hcolumns, fun table _ => hinitial.settleable table⟩
  have hplanned : ∀ table ∈ schema.tables,
      ((initial.columns table.name).map LiveColumn.name).Nodup :=
    fun table htable => (hstart.settleable table htable).names
  obtain ⟨first, hrun, hready', -, hsettled, hfollows⟩ :=
    update_schema_yields hstart db once hready hfirst.replays
  -- The first run leaves the structure at rest.
  have hgrown := grown_of_follows hstart hfirst hsettled (update_schema_log hrun ▸ hfollows)
  have hrests : ∀ table ∈ schema.tables, RestsIn once table := by
    intro table htable
    obtain ⟨hpresent, hgrown⟩ := hgrown table htable
    exact ⟨hpresent, hclean table htable,
      hgrown.settleable (hstart.settleable table htable) (hcolumns table htable),
      hgrown.at_rest (hplanned table htable) (hcolumns table htable)⟩
  obtain ⟨second, hrun', hready'', rfl, rfl⟩ :=
    update_schema_rest rfl hrests _ twice hready' hsecond
  obtain ⟨_, hrun'', -, rfl, -⟩ := update_schema_rest rfl hrests _ thrice hready'' hthird
  obtain ⟨-, hcommands⟩ := update_schema_accounts b schema _ _ _ hrun'
  refine ⟨first, _, hrun, hrun', ?_, ?_, hrun''⟩
  · rw [hcommands, ← update_schema_log hrun']
    refine List.flatMap_eq_nil_iff.mpr fun record hrecord => ?_
    have hunapplied := not_applied_of_skipped (notices_skipped hrecord)
    rw [ChangeRecord.executed, ChangeRecord.isApplied, decide_eq_false hunapplied]
    rfl
  · obtain ⟨hwords, -⟩ := heard_plan hplanned hfollows
    rw [← skippedWords, hwords, notices, notices, List.map_flatMap, List.map_flatMap]
    exact List.flatMap_congr fun table htable =>
      (hgrown table htable).2.table_words (hplanned table htable) (hcolumns table htable)

/-- The statement above has instances in which the first run adds an index and a column beside what
it skips. -/
theorem mixed_runs_stable :
    ∃ first second,
      ((updateSchema (Script.backend .mysql) mixedSchema .unforced).run mixedHandle).1 = .ok first ∧
      first.map ChangeRecord.describe =
        ["[skipped, needs --force] dropped column `users.old`",
          "[skipped, needs --force] modified column `users.a` to TEXT NULL",
          "[skipped, needs --force] dropped index `ix_a` on `users`",
          "[skipped, old index kept] added unique index on `users.a`",
          "added index on `users.b`", "added column `users.c` INT NULL"] ∧
      ((updateSchema (Script.backend .mysql) mixedSchema .unforced).run
        ((updateSchema (Script.backend .mysql) mixedSchema .unforced).run mixedHandle).2).1
          = .ok second ∧
      second.map ChangeRecord.describe =
        (first.filter ChangeRecord.isSkipped).map ChangeRecord.describe := by
  have hnoted : (Script.backend .mysql).Replays (.only "users" mixedAfter) (mixedNoted mixedAfter)
      (.only "users" mixedAfter) := (mixed_noted_steady rfl).replays
  obtain ⟨first, second, hfirst, hsecond, -, hwords, -⟩ :=
    update_schema_unforced_stable (Script.backend .mysql) mixedDocument mixedSchema
      (.only "users" mixedBefore) (.only "users" mixedAfter) (.only "users" mixedAfter)
      (.only "users" mixedAfter) mixedHandle rfl (by decide) (by decide) mixed_before_well_formed
      ⟨_, .inl rfl⟩ mixed_run_steady (mixed_again_traces.1 ▸ hnoted)
      (mixed_again_traces.2 ▸ hnoted)
  refine ⟨first, second, hfirst, ?_, hsecond, hwords⟩
  have hlog : ((updateSchema (Script.backend .mysql) mixedSchema .unforced).run
      mixedHandle).1.map (List.map ChangeRecord.describe) =
        .ok ["[skipped, needs --force] dropped column `users.old`",
          "[skipped, needs --force] modified column `users.a` to TEXT NULL",
          "[skipped, needs --force] dropped index `ix_a` on `users`",
          "[skipped, old index kept] added unique index on `users.a`",
          "added index on `users.b`", "added column `users.c` INT NULL"] := by
    decide +kernel
  rw [hfirst] at hlog
  exact Except.ok.inj hlog

end Session

end SchemaKeeper

import SchemaKeeper.Proofs.Synchronization.Abreast
import SchemaKeeper.Proofs.Synchronization.Convergence
import SchemaKeeper.Proofs.Synchronization.Statements

/-!
# A dry run foretells the run

A dry run and an executing one go through the same columns in step. `TellsLog` compares their logs:
change by change they are the same but for the names of indexes that go, and
`Session.update_schema_foretold` gives the conditions under which these are the same too.
-/

namespace SchemaKeeper

namespace SyncOptions

/-- The options of a run that shows what it would do. -/
def planning (force : Bool) : SyncOptions := { force, dryRun := true }

/-- The options of a run that does it. -/
def executing (force : Bool) : SyncOptions := { force, dryRun := false }

end SyncOptions

namespace Synchronization

open Session Structure SyncOptions

variable {σ : Type} {b : Backend σ} {d : Dialect} {initial start t : Structure} {force : Bool}
  {table : String} {declared : Column} {live live' : List LiveColumn}

/-- The change that a dry run plans is the one that the executing run makes. Only an index that goes
may be called otherwise in SQLite, where a rebuild has given it the name of the dialect: the dry run
calls it what it was called at first. -/
inductive Tells (d : Dialect) (initial : Structure) : Change → Change → Prop where
  | same (change : Change) : Tells d initial change change
  | renamed (table : String) (columns : List LiveColumn) (c : LiveColumn) (hsqlite : d = .sqlite)
      (hcolumns : initial.users table = some columns) (hc : c ∈ columns) :
      Tells d initial
        (.dropIndex table c.name (c.indexName.getD (d.indexName table c.name)))
        (.dropIndex table c.name (d.indexName table c.name))

/-- What a record of the dry run says of the record in its place. -/
structure TellsRecord (d : Dialect) (initial : Structure) (planned made : ChangeRecord) : Prop where
  change : Tells d initial planned.change made.change
  plannedStatements : planned.statements = d.statements planned.change
  madeStatements : made.statements = d.statements made.change
  skipped : made.isSkipped = planned.isSkipped

/-- What the log of the dry run says of the log of the executing run. -/
abbrev TellsLog (d : Dialect) (initial : Structure) (log log' : List ChangeRecord) : Prop :=
  List.Forall₂ (TellsRecord d initial) log log'

theorem Tells.is_destructive_eq {change change' : Change} (h : Tells d initial change change') :
    change'.isDestructive = change.isDestructive := by
  cases h <;> rfl

/-- A change is applied by the executing run unless it is held back. -/
theorem outcome_executing (change : Change) :
    outcomeOf (executing force) change = .applied ↔
      (change.isDestructive && !force) = false := by
  unfold outcomeOf
  cases hheld : change.isDestructive && !(executing force).force with
  | true => simp [show (change.isDestructive && !force) = true from hheld]
  | false =>
      simp [show (change.isDestructive && !force) = false from hheld,
        show (executing force).dryRun = false from rfl]

/-- Both runs come to the same decision on a change, and only the executing run carries it out. -/
theorem apply_foretells {change change' : Change} (h : Tells b.dialect initial change change') :
    Foretells b initial t (apply b (planning force) change) (apply b (executing force) change')
      fun r r' t' => TellsRecord b.dialect initial r r' ∧
        r.isSkipped = (change.isDestructive && !force) ∧
        t' = if change.isDestructive && !force then t else b.dialect.carryOut change' t := by
  have hplanned : outcomeOf (planning force) change ≠ .applied := by
    unfold outcomeOf
    split <;> exact nofun
  have hkind := h.is_destructive_eq
  unfold apply
  refine (Foretells.of_yields (execute_all_yields _) (execute_all_yields _)
    (fun db => (execute_all_sent b _ db).unrecorded)
    fun db => (execute_all_sent b _ db).unrecorded).bind fun _ _ mid hmid => ?_
  obtain ⟨rfl, -⟩ := hmid
  refine (Foretells.note hplanned).bind fun _ _ t' ht' =>
    Foretells.pure ⟨⟨h, rfl, rfl, ?_⟩, is_skipped_of _ _, ?_⟩
  · rw [is_skipped_of, is_skipped_of, hkind]
    rfl
  · rw [ht', ← hkind]
    cases hheld : change'.isDestructive && !force with
    | true =>
        refine if_neg fun happlied => ?_
        rw [(outcome_executing change').mp happlied] at hheld
        cases hheld
    | false => exact if_pos ((outcome_executing change').mpr hheld)

/-- A change that is skipped for a reason of its own is skipped by both runs. -/
theorem skip_foretells (reason : SkipReason) (change : Change) :
    Foretells b initial t (skip b reason change) (skip b reason change) fun r r' t' =>
      TellsRecord b.dialect initial r r' ∧ t' = t := by
  unfold skip
  refine (Foretells.note (by exact nofun)).bind fun _ _ t' ht' =>
    Foretells.pure ⟨⟨.same change, rfl, rfl, rfl⟩, ht'⟩

/-- Columns that go from both lists go from the table of the executing run. -/
theorem drop_all_foretells {doomed : List LiveColumn}
    (hclean : ∀ c ∈ doomed, Identifier.IsClean c.name ∧
      ∀ index, c.indexName = some index → Identifier.IsClean index)
    (h : Abreast b.dialect table initial start live live' t) :
    Foretells b initial t (dropAll b (planning force) table doomed live)
      (dropAll b (executing force) table doomed live') fun p p' t' =>
        Abreast b.dialect table initial start p.1 p'.1 t' ∧
        TellsLog b.dialect initial p.2 p'.2 := by
  induction doomed generalizing live live' t with
  | nil => exact Foretells.pure ⟨h, .nil⟩
  | cons column rest ih =>
      obtain ⟨⟨hname, hindex⟩, hrest⟩ := List.forall_mem_cons.mp hclean
      rw [drop_all_cons, drop_all_cons]
      refine Foretells.built_bind (drop_of_clean hname hindex) ?_
      refine (apply_foretells (.same _)).bind fun r r' mid hmid => ?_
      obtain ⟨hrecord, hskipped, rfl⟩ := hmid
      rw [hrecord.skipped, hskipped]
      have hnext : Abreast b.dialect table initial start
          (if (Change.dropColumn table column.name column.indexName).isDestructive && !force
            then live else live.filter fun c => c.name ≠ column.name)
          (if (Change.dropColumn table column.name column.indexName).isDestructive && !force
            then live' else live'.filter fun c => c.name ≠ column.name)
          (if (Change.dropColumn table column.name column.indexName).isDestructive && !force
            then t else b.dialect.carryOut
              (.dropColumn table column.name column.indexName) t) := by
        split
        · exact h
        · exact h.drop column.name column.indexName
      refine (ih hrest hnext).bind fun p p' t' ht' => Foretells.pure ?_
      exact ⟨ht'.1, .cons hrecord ht'.2⟩

/-- What both runs make of the columns that they track: these stay abreast and keep their names, and
the records tell of each other. -/
structure InStep (d : Dialect) (table : String) (initial start : Structure)
    (live : List LiveColumn) (p p' : Progress) (t : Structure) : Prop where
  abreast : Abreast d table initial start p.1 p'.1 t
  tells : TellsLog d initial p.2 p'.2
  names : p.1.map LiveColumn.name = live.map LiveColumn.name

namespace InStep

theorem refl (h : Abreast d table initial start live live' t) :
    InStep d table initial start live (live, []) (live', []) t :=
  ⟨h, .nil, rfl⟩

/-- One change that both runs record in front of what they do next. -/
theorem cons {p p' : Progress} {r r' : ChangeRecord} {new : List LiveColumn}
    (h : InStep d table initial start new p p' t) (hrecord : TellsRecord d initial r r')
    (hnames : new.map LiveColumn.name = live.map LiveColumn.name) :
    InStep d table initial start live (p.1, r :: p.2) (p'.1, r' :: p'.2) t :=
  ⟨h.abreast, .cons hrecord h.tells, h.names.trans hnames⟩

end InStep

/-- Both runs give a column its declared definition, or both leave it as it is. -/
theorem modify_foretells {current current' : LiveColumn} (htable : Identifier.IsClean table)
    (h : Abreast b.dialect table initial start live live' t)
    (hfind : live.find? (fun c => c.name = declared.name) = some current)
    (hlike : Likened b.dialect table current current') :
    Foretells b initial t (modify b (planning force) table declared current live)
      (modify b (executing force) table declared current' live')
      (InStep b.dialect table initial start live) := by
  have hname : current.name = declared.name := name_of_find LiveColumn.name hfind
  unfold modify
  dsimp only
  rw [hlike.spec_eq, h.alike.replace_specs fun _ _ _ => rfl]
  have hnames : (replaceFirst declared.name (fun c =>
      { c with spec := { declared with index := current.spec.index } }) live).map LiveColumn.name =
        live.map LiveColumn.name := names_replace_first fun _ _ => rfl
  have hreread := h.reread hfind rfl rfl
  generalize replaceFirst declared.name (fun c =>
    { c with spec := { declared with index := current.spec.index } }) live = new at hnames hreread ⊢
  obtain ⟨full, hfull, hnew⟩ := hreread
  refine (apply_foretells (.same _)).bind fun r r' mid hmid => ?_
  obtain ⟨hrecord, hskipped, hmid⟩ := hmid
  rw [hrecord.skipped, hskipped]
  cases force with
  | false =>
      subst hmid
      exact Foretells.pure ((InStep.refl h).cons hrecord rfl)
  | true =>
      replace hmid : mid = b.dialect.carryOut _ t := hmid
      rw [← hmid] at hfull hnew
      show Foretells b initial mid (pure (new, [r]))
        (userColumns b table >>= fun reread => pure (reread, [r'])) _
      have hread : Yields b mid.users (userColumns b table >>= fun reread => pure (reread, [r']))
          fun p _ => p = (userPart full, [r']) := by
        refine (Yields.user_columns (Identifier.sanitize_clean htable)).bind fun columns _ hc => ?_
        rw [hc.2 _ (users_eq hfull)]
        exact Yields.pure rfl
      have hplan : Yields b initial.users (pure (new, [r]) : Session σ Progress)
          fun p _ => p = (new, [r]) := Yields.pure rfl
      refine (Foretells.of_yields hplan hread (fun db => (Quiet.pure _ db).1) fun db =>
        ((Quiet.user_columns b table).bind (fun _ => Quiet.pure _) db).1).mono ?_
      rintro _ _ _ ⟨rfl, rfl, rfl⟩
      exact (InStep.refl hnew).cons hrecord hnames

/-- What the dry run says of the index that goes: both runs call it the same, or the engine of the
executing run has given it the name of the dialect. -/
theorem tells_of_likened {current current' : LiveColumn} (hname : current.name = declared.name)
    (hindexed : current.spec.index.isIndexed = true) (hlike : Likened d table current current')
    (hsourced : Sourced d table initial current) :
    Tells d initial
      (.dropIndex table declared.name
        (current.indexName.getD (d.indexName table declared.name)))
      (.dropIndex table declared.name
        (current'.indexName.getD (d.indexName table declared.name))) := by
  have hadded : (added d table current.spec).indexName =
      some (d.indexName table declared.name) := by
    rw [added, hindexed, if_pos rfl, ← hname]
    rfl
  rcases hlike with rfl | ⟨hsqlite, rfl⟩
  · exact .same _
  · rw [hadded, Option.getD_some]
    rcases hsourced with hown | ⟨columns, first, hcolumns, hfirst, hname', hindex⟩
    · rw [hown, hadded, Option.getD_some]
      exact .same _
    · rw [← hindex, ← hname, ← hname']
      exact .renamed table columns first hsqlite hcolumns hfirst

/-- Both runs add the declared index of a column, or both hold it back. -/
theorem add_index_foretells (stays : Bool) (h : Abreast b.dialect table initial start live live' t)
    (hreserved : Identifier.isReserved declared.name = false) :
    Foretells b initial t (addIndex b (planning force) table declared stays live)
      (addIndex b (executing force) table declared stays live')
      (InStep b.dialect table initial start live) := by
  unfold addIndex
  cases hindexed : declared.index.isIndexed with
  | false => exact Foretells.pure (.refl h)
  | true =>
      cases stays with
      | true =>
          refine (skip_foretells _ _).bind fun r r' mid hmid => Foretells.pure ?_
          obtain ⟨hrecord, rfl⟩ := hmid
          exact (InStep.refl h).cons hrecord rfl
      | false =>
          refine (apply_foretells (.same _)).bind fun r r' mid hmid => Foretells.pure ?_
          obtain ⟨hrecord, -, hmid⟩ := hmid
          replace hmid : mid = b.dialect.carryOut
            (.addIndex table declared.name declared.index) t := hmid
          subst hmid
          exact (InStep.refl (h.index hreserved hindexed)).cons hrecord
            (names_replace_first fun _ hc => hc)

/-- Both runs bring the index of a column to the declared kind, or both leave it as it is. -/
theorem sync_index_foretells (h : Abreast b.dialect table initial start live live' t)
    (hreserved : Identifier.isReserved declared.name = false) :
    Foretells b initial t (syncIndex b (planning force) table declared live)
      (syncIndex b (executing force) table declared live')
      (InStep b.dialect table initial start live) := by
  rcases h.alike.find_cases declared.name with
    ⟨hnone, hnone'⟩ | ⟨current, current', hfind, hfind', hlike⟩
  · unfold syncIndex
    rw [hnone, hnone']
    exact Foretells.pure (.refl h)
  · have hname : current.name = declared.name := name_of_find LiveColumn.name hfind
    rw [sync_index_some hfind, sync_index_some hfind', hlike.spec_eq]
    split
    · exact Foretells.pure (.refl h)
    · cases hindexed : current.spec.index.isIndexed with
      | false => exact add_index_foretells false h hreserved
      | true =>
          have htells := tells_of_likened hname hindexed hlike
            (h.sourced current (List.mem_of_find?_eq_some hfind))
          rw [if_pos rfl, if_pos rfl]
          refine (apply_foretells htells).bind fun r r' mid hmid => ?_
          obtain ⟨hrecord, hskipped, hmid⟩ := hmid
          rw [hrecord.skipped, hskipped]
          cases force with
          | false =>
              subst hmid
              exact (add_index_foretells true h hreserved).bind fun p p' t' ht' =>
                Foretells.pure (ht'.cons hrecord rfl)
          | true =>
              replace hmid : mid = b.dialect.carryOut (.dropIndex table declared.name
                (current'.indexName.getD (b.dialect.indexName table declared.name))) t := hmid
              subst hmid
              refine (add_index_foretells false (h.unindex hreserved _) hreserved).bind
                fun p p' t' ht' => Foretells.pure (ht'.cons hrecord ?_)
              exact names_replace_first fun _ hc => hc

/-- Both runs bring one declared column about. Where it was missing the engine puts it where the
runs track it. -/
theorem sync_column_foretells {after : String} (htable : Identifier.IsClean table)
    (h : Abreast b.dialect table initial start live live' t)
    (hreserved : Identifier.isReserved declared.name = false)
    (hafter : after = "id" ∨ after ∈ live.map LiveColumn.name) :
    Foretells b initial t (syncColumn b (planning force) table after declared live)
      (syncColumn b (executing force) table after declared live') fun p p' t' =>
        Abreast b.dialect table initial start p.1 p'.1 t' ∧ TellsLog b.dialect initial p.2 p'.2 ∧
        declared.name ∈ p.1.map LiveColumn.name := by
  rcases h.alike.find_cases declared.name with
    ⟨hnone, hnone'⟩ | ⟨current, current', hfind, hfind', hlike⟩
  · rw [sync_column_none hnone, sync_column_none hnone']
    refine (apply_foretells (.same _)).bind fun r r' mid hmid => Foretells.pure ?_
    obtain ⟨hrecord, -, hmid⟩ := hmid
    replace hmid : mid = b.dialect.carryOut (.addColumn table declared after) t := hmid
    subst hmid
    refine ⟨h.add hreserved hafter, .cons hrecord .nil, ?_⟩
    exact List.mem_map.mpr ⟨added b.dialect table declared,
      (insert_after_perm after _ live).mem_iff.mpr List.mem_cons_self, rfl⟩
  · have hmem : declared.name ∈ live.map LiveColumn.name :=
      List.mem_map.mpr ⟨current, List.mem_of_find?_eq_some hfind,
        name_of_find LiveColumn.name hfind⟩
    have hredefine : Foretells b initial t
        (redefine b (planning force) table declared current live)
        (redefine b (executing force) table declared current' live')
        (InStep b.dialect table initial start live) := by
      unfold redefine
      rw [hlike.spec_eq]
      split
      · exact modify_foretells htable h hfind hlike
      · exact Foretells.pure (.refl h)
    rw [sync_column_some hfind, sync_column_some hfind']
    refine hredefine.bind fun p p' mid hmid => ?_
    refine (sync_index_foretells hmid.abreast hreserved).bind fun q q' t' ht' => Foretells.pure ?_
    refine ⟨ht'.abreast, List.rel_append hmid.tells ht'.tells, ?_⟩
    rw [ht'.names, hmid.names]
    exact hmem

/-- Both runs bring the declared columns about, one after another. -/
theorem sync_columns_foretells {after : String} {columns : List Column}
    (htable : Identifier.IsClean table) (h : Abreast b.dialect table initial start live live' t)
    (hafter : after = "id" ∨ after ∈ live.map LiveColumn.name) :
    Foretells b initial t (syncColumns b (planning force) table after columns live)
      (syncColumns b (executing force) table after columns live') fun log log' t' =>
        (∀ other ≠ table, t' other = start other) ∧ TellsLog b.dialect initial log log' := by
  induction columns generalizing after live live' t with
  | nil => exact Foretells.pure ⟨h.others, .nil⟩
  | cons declared rest ih =>
      rw [sync_columns_cons, sync_columns_cons]
      cases hreserved : Identifier.isReserved declared.name with
      | true => exact ih h hafter
      | false =>
          rw [if_neg Bool.false_ne_true, if_neg Bool.false_ne_true]
          refine (sync_column_foretells htable h hreserved hafter).bind fun p p' mid hmid => ?_
          refine (ih hmid.1 (.inr hmid.2.2)).bind fun log log' t' ht' => Foretells.pure ?_
          exact ⟨ht'.1, List.rel_append hmid.2.1 ht'.2⟩

/-- Both runs create a table that is missing; the dry run only says so. -/
theorem ensure_table_foretells (present : Bool) :
    Foretells b initial t (ensureTable b (planning force) table present)
      (ensureTable b (executing force) table present) fun log log' t' =>
        TellsLog b.dialect initial log log' ∧
        t' = if present then t else b.dialect.carryOut (.createTable table) t := by
  unfold ensureTable
  cases present with
  | true => exact Foretells.pure ⟨.nil, rfl⟩
  | false =>
      refine (apply_foretells (.same _)).bind fun r r' t' ht' => Foretells.pure ?_
      exact ⟨.cons ht'.1 .nil, ht'.2.2⟩

/-- Both runs start from the same columns: those that the table has, or none if it is new. -/
theorem live_columns_foretells {present : Bool} (htable : Identifier.IsClean table)
    (hpresent : present = (initial table).isSome)
    (hled : b.dialect = .mysql → ∀ full, initial table = some full → LedById full)
    (ht : t table = initial table) :
    Foretells b initial (if present then t else b.dialect.carryOut (.createTable table) t)
      (liveColumns b (planning force) table present)
      (liveColumns b (executing force) table present) fun live live' t' =>
        Abreast b.dialect table initial t live live' t' ∧ live = live' ∧
        live = (initial.users table).getD [] := by
  have hread : ∀ (s : Structure), Yields b s.users (userColumns b table) fun live s' =>
      s' = s.users ∧ ∀ columns, s.users table = some columns → live = columns := fun s =>
    Yields.user_columns (Identifier.sanitize_clean htable)
  have hquiet : ∀ db, Event.records ((userColumns b table).trace db) = [] := fun db =>
    (Quiet.user_columns b table db).1
  cases hinitial : initial table with
  | some full =>
      rw [hinitial] at ht
      obtain rfl : present = true := by rw [hpresent, hinitial]; rfl
      refine (Foretells.of_yields (hread initial) (hread t) hquiet hquiet).mono ?_
      rintro live live' t' ⟨rfl, ⟨-, hlive⟩, -, hlive'⟩
      rw [hlive _ (users_eq hinitial), hlive' _ (users_eq ht), users_eq hinitial]
      refine ⟨⟨fun _ _ => rfl, .refl _, fun c hc => .inr ?_,
        fun c hc => unreserved_of_user_part hc, fun hd => ?_⟩, rfl, rfl⟩
      · exact ⟨_, c, users_eq hinitial, hc, rfl, rfl⟩
      · exact ⟨full, ht, rfl, hled hd full hinitial⟩
  | none =>
      obtain rfl : present = false := by rw [hpresent, hinitial]; rfl
      have hcreated : b.dialect.carryOut (.createTable table) t table = some reservedPart :=
        if_pos rfl
      have hplan : Yields b initial.users (pure [] : Session σ (List LiveColumn))
          fun live _ => live = [] := Yields.pure rfl
      refine (Foretells.of_yields hplan (hread _) (fun db => (Quiet.pure _ db).1) hquiet).mono ?_
      rintro live live' t' ⟨rfl, rfl, -, hlive'⟩
      rw [if_neg Bool.false_ne_true] at hlive' ⊢
      rw [hlive' _ (users_eq hcreated), user_part_reserved_part, users, hinitial]
      refine ⟨⟨fun other hother => Dialect.carry_out_other hother, .nil, List.forall_mem_nil _,
        List.forall_mem_nil _, fun _ => ⟨_, hcreated, user_part_reserved_part, ?_⟩⟩, rfl, rfl⟩
      decide

/-- Both runs bring one declared table about. -/
theorem sync_table_foretells {table : Table} {present : Bool}
    (htable : Identifier.IsClean table.name)
    (hplanned : Settleable table ((initial.users table.name).getD []))
    (hpresent : present = (initial table.name).isSome)
    (hled : b.dialect = .mysql → ∀ full, initial table.name = some full → LedById full)
    (ht : t table.name = initial table.name) :
    Foretells b initial t (syncTable b (planning force) table present)
      (syncTable b (executing force) table present) fun log log' t' =>
        (∀ other ≠ table.name, t' other = t other) ∧ TellsLog b.dialect initial log log' := by
  rw [sync_table_eq, sync_table_eq]
  refine (ensure_table_foretells present).bind fun created created' mid hmid => ?_
  obtain ⟨hcreated, rfl⟩ := hmid
  refine (live_columns_foretells htable hpresent hled ht).bind fun live live' mid' hmid' => ?_
  obtain ⟨habreast, rfl, hlive⟩ := hmid'
  rw [← hlive] at hplanned
  refine (drop_all_foretells hplanned.clean habreast).bind fun p p' mid'' hmid'' => ?_
  refine (sync_columns_foretells htable hmid''.1 (.inl rfl)).bind fun log log' t' ht' =>
    Foretells.pure ?_
  exact ⟨ht'.1, List.rel_append (List.rel_append hcreated hmid''.2) ht'.2⟩

/-- Both runs bring the declared tables about, one after another; the tables that are still to come
stand in the executing run as they did at first. -/
theorem sync_tables_foretells {tables : List Table} {existing existing' : List String}
    (hnames : (tables.map Table.name).Nodup)
    (hclean : ∀ table ∈ tables, Identifier.IsClean table.name)
    (hplanned : ∀ table ∈ tables, Settleable table ((initial.users table.name).getD []))
    (hled : b.dialect = .mysql → ∀ table full, initial table = some full → LedById full)
    (hexisting : ∀ table ∈ tables, existing.contains table.name = (initial table.name).isSome)
    (hexisting' : ∀ table ∈ tables, existing'.contains table.name = (initial table.name).isSome)
    (ht : ∀ table ∈ tables, t table.name = initial table.name) :
    Foretells b initial t (syncTables b (planning force) tables existing)
      (syncTables b (executing force) tables existing') fun log log' _ =>
        TellsLog b.dialect initial log log' := by
  induction tables generalizing existing existing' t with
  | nil => exact Foretells.pure .nil
  | cons table rest ih =>
      rw [List.map_cons, List.nodup_cons] at hnames
      obtain ⟨hfresh, hnames⟩ := hnames
      obtain ⟨htable, hclean⟩ := List.forall_mem_cons.mp hclean
      obtain ⟨hsettleable, hplanned⟩ := List.forall_mem_cons.mp hplanned
      obtain ⟨hpresent, hexisting⟩ := List.forall_mem_cons.mp hexisting
      obtain ⟨hpresent', hexisting'⟩ := List.forall_mem_cons.mp hexisting'
      obtain ⟨hstart, ht⟩ := List.forall_mem_cons.mp ht
      have hne : ∀ other ∈ rest, other.name ≠ table.name := fun other hother heq =>
        hfresh (heq ▸ List.mem_map_of_mem hother)
      have hgrown : ∀ names : List String,
          (∀ other ∈ rest, names.contains other.name = (initial other.name).isSome) →
          ∀ other ∈ rest, (if names.contains table.name then names
            else names ++ [table.name]).contains other.name = (initial other.name).isSome :=
        fun names h other hother => (contains_other (hne other hother)).trans (h other hother)
      rw [sync_tables_cons, sync_tables_cons, hpresent, hpresent']
      refine (sync_table_foretells htable hsettleable rfl (fun hd => hled hd table.name)
        hstart).bind fun log log' mid hmid => ?_
      refine (ih hnames hclean hplanned ?_ ?_ fun other hother => ?_).bind
        fun others others' t' ht' => Foretells.pure (List.rel_append hmid.2 ht')
      · rw [← hpresent]
        exact hgrown existing hexisting
      · rw [← hpresent']
        exact hgrown existing' hexisting'
      · rw [hmid.1 other.name (hne other hother), ht other hother]

/-- The changes of a log that are not skipped, each with the texts of its statements. -/
def shown (d : Dialect) (log : List ChangeRecord) : List (Change × List String) :=
  (log.filter fun r => !r.isSkipped).map fun r => (r.change, r.sql d)

/-- What a dry run shows of a change and what the executing run then shows of it. -/
structure Previews (d : Dialect) (initial : Structure) (planned made : Change × List String) :
    Prop where
  change : Tells d initial planned.1 made.1
  plannedSql : planned.2 = d.changeSql planned.1
  madeSql : made.2 = d.changeSql made.1

/-- Where a log tells of another one, so does what is shown of it. -/
theorem TellsLog.shown {log log' : List ChangeRecord} (h : TellsLog d initial log log') :
    List.Forall₂ (Previews d initial) (shown d log) (shown d log') := by
  induction h with
  | nil => exact .nil
  | @cons r r' rest rest' hrecord _ ih =>
      unfold Synchronization.shown
      rw [List.filter_cons, List.filter_cons, hrecord.skipped]
      split
      · exact .cons ⟨hrecord.change, congrArg (List.map _) hrecord.plannedStatements,
          congrArg (List.map _) hrecord.madeStatements⟩ ih
      · exact ih

/-- Each index is called what the dialect calls an index on its column. -/
def OwnNames (d : Dialect) (s : Structure) : Prop :=
  ∀ table columns, s table = some columns → ∀ c ∈ columns, ∀ name, c.indexName = some name →
    name = d.indexName table c.name

/-- Where no index has a name of its own, the dry run knows all names. -/
theorem Tells.eq {change change' : Change} (h : Tells d initial change change')
    (hown : d = .sqlite → OwnNames d initial.users) : change = change' := by
  cases h with
  | same => rfl
  | renamed table columns c hsqlite hcolumns hc =>
      cases hindex : c.indexName with
      | none => rfl
      | some name =>
          rw [hown hsqlite table columns hcolumns c hc name hindex]
          rfl

/-- A declaration of a text that was a number, and of a text without an index. -/
def previewDocument : Json :=
  .object [("users", .object [
    ("age", .object [("type", .text "TEXT")]),
    ("code", .object [])])]

def previewAge : Column := .ofType "age" "TEXT" true none .none

def previewCode (kind : IndexKind) : Column := .ofType "code" "VARCHAR(128)" true none kind

def previewSchema : Schema := ⟨[⟨"users", [previewAge, previewCode .none]⟩]⟩

/-- Before the runs one text is a number, and the other one has a unique index of the name. -/
def previewBefore (index : String) : List LiveColumn :=
  [⟨.ofType "age" "INT" true none .none, none⟩, ⟨previewCode .unique, some index⟩]

/-- The rebuild has called the index what the dialect calls it. -/
def previewBetween : List LiveColumn :=
  [⟨previewAge, none⟩, ⟨previewCode .unique, some "index_users_code"⟩]

def previewAfter : List LiveColumn := [⟨previewAge, none⟩, ⟨previewCode .none, none⟩]

/-- An engine that describes the table before the runs and after a rebuild. -/
def previewHandle (index : String) : Handle Script :=
  .start (some ⟨"localhost", none, "", "", "app"⟩) []
    { fetches := [.ok usersRows]
      describes := [.ok (previewBefore index), .ok previewBetween] }

def previewModify : Change :=
  .modifyColumn "users" previewAge [previewAge, previewCode .unique]

/-- The events with which both runs begin. -/
def previewStart (index : String) : List Event :=
  [.called (.connect ⟨"localhost", none, "", "", "app"⟩) .done,
    .called (.fetch "LIST TABLES") (.rows usersRows), .attempted "LIST TABLES" none,
    .called (.describe "users") (.columns (previewBefore index)),
    .attempted "LIST COLUMNS OF users" none]

def previewPlanned (index : String) : List Event :=
  previewStart index ++
    [.recorded (.of .sqlite previewModify .planned),
      .recorded (.of .sqlite (.dropIndex "users" "code" index) .planned)]

/-- The events of a statement that is executed. -/
def previewExecuted (s : Ddl) : List Event :=
  [.called (.execute (.ddl s)) (.affected 0), .attempted (s.text .sqlite) none]

def previewMade (index : String) : List Event :=
  previewStart index ++ (Dialect.sqlite.statements previewModify).flatMap previewExecuted ++
    .recorded (.of .sqlite previewModify .applied) ::
    .called (.describe "users") (.columns previewBetween) ::
    .attempted "LIST COLUMNS OF users" none ::
    ([Ddl.dropIndex "index_users_code" "users"].flatMap previewExecuted ++
      [.recorded (.of .sqlite (.dropIndex "users" "code" "index_users_code") .applied)])

/-- What both runs do if the index has a name of its own, and if it has that of the dialect. -/
theorem preview_traces : ∀ index ∈ ["by_code", "index_users_code"],
    (Session.updateSchema (Script.backend .sqlite) previewSchema (planning true)).trace
      (previewHandle index) = previewPlanned index ∧
    (Session.updateSchema (Script.backend .sqlite) previewSchema (executing true)).trace
      (previewHandle index) = previewMade index := by
  decide +kernel

/-- The table with its reserved columns. -/
def previewTable (columns : List LiveColumn) : Structure :=
  .only "users" (reservedPart ++ columns)

/-- None of the columns is reserved. -/
theorem preview_user_part {columns : List LiveColumn}
    (h : columns.map LiveColumn.name = ["age", "code"]) : userPart columns = columns := by
  have hfree : ∀ name ∈ ["age", "code"], Identifier.isReserved name = false := by decide
  refine user_part_eq_self fun c hc => hfree c.name ?_
  rw [← h]
  exact List.mem_map_of_mem hc

theorem preview_before_names (index : String) :
    (previewBefore index).map LiveColumn.name = ["age", "code"] := by
  simp [previewBefore, previewCode, LiveColumn.name, Column.ofType]

theorem preview_between_names : previewBetween.map LiveColumn.name = ["age", "code"] := by
  simp [previewBetween, previewAge, previewCode, LiveColumn.name, Column.ofType]

theorem preview_users {columns : List LiveColumn}
    (h : columns.map LiveColumn.name = ["age", "code"]) :
    (previewTable columns).users = .only "users" columns := by
  rw [previewTable, users_only, user_part_append, user_part_reserved_part, List.nil_append,
    preview_user_part h]

theorem preview_before_well_formed {index : String} (hindex : Identifier.IsClean index) :
    WellFormed (previewTable (previewBefore index)).users := by
  have hclean : ∀ name ∈ ["age", "code"],
      Identifier.isReserved name = false ∧ Identifier.IsClean name := by decide
  rw [preview_users (preview_before_names index)]
  intro table live h
  unfold Structure.only at h
  split at h
  · cases h
    rw [preview_before_names]
    refine ⟨by decide, fun c hc => ?_⟩
    have hname := List.mem_map_of_mem (f := LiveColumn.name) hc
    rw [preview_before_names] at hname
    refine ⟨(hclean _ hname).1, (hclean _ hname).2, fun name hindexed => ?_⟩
    rcases List.mem_cons.mp hc with rfl | hrest
    · cases hindexed
    · cases List.mem_singleton.mp hrest
      cases hindexed
      exact hindex
  · cases h

/-- The index may have been called what the dialect calls it from the beginning. -/
theorem preview_own_names :
    OwnNames .sqlite (previewTable (previewBefore "index_users_code")).users := by
  have hname : "index_users_code" = Dialect.sqlite.indexName "users" "code" := by decide +kernel
  rw [preview_users (preview_before_names _)]
  intro table columns htable c hc name hindex
  unfold Structure.only at htable
  split at htable
  · next htable' =>
      cases htable
      rcases List.mem_cons.mp hc with rfl | hrest
      · cases hindex
      · cases List.mem_singleton.mp hrest
        cases hindex
        rw [htable']
        exact hname
  · cases htable

/-- An engine that has a table answers from it and executes what it is sent. -/
theorem preview_still {columns : List LiveColumn} {event : Event} {rest : List Event}
    {s' : Structure} (hnames : columns.map LiveColumn.name = ["age", "code"])
    (hevent : ∀ record, event = .recorded record → record.outcome ≠ .applied)
    (hstep : (Script.backend .sqlite).Step (.only "users" columns) event (.only "users" columns))
    (hrest : (Script.backend .sqlite).Complies (previewTable columns) rest s') :
    (Script.backend .sqlite).Complies (previewTable columns) (event :: rest) s' :=
  .still hevent (by rwa [preview_users hnames]) hrest

theorem preview_described {columns : List LiveColumn} {events : List Event}
    {s' : Structure} (hnames : columns.map LiveColumn.name = ["age", "code"])
    (hrest : (Script.backend .sqlite).Complies (previewTable columns) events s') :
    (Script.backend .sqlite).Complies (previewTable columns)
      (.called (.describe "users") (.columns columns) ::
        .attempted "LIST COLUMNS OF users" none :: events) s' := by
  refine preview_still hnames (fun _ h => nomatch h) (.described _ _ _ fun live h => ?_)
    (preview_still hnames (fun _ h => nomatch h) (.attempted _ _) hrest)
  exact users_described (preview_user_part hnames) h

theorem preview_start_complies {index : String} {rest : List Event} {s' : Structure}
    (hrest : (Script.backend .sqlite).Complies (previewTable (previewBefore index)) rest s') :
    (Script.backend .sqlite).Complies (previewTable (previewBefore index))
      (previewStart index ++ rest) s' := by
  have hnames := preview_before_names index
  refine preview_still hnames (fun _ h => nomatch h) (.connected _ _) ?_
  refine preview_still hnames (fun _ h => nomatch h) (.listed _ _ (users_listed _)) ?_
  exact preview_still hnames (fun _ h => nomatch h) (.attempted _ _)
    (preview_described hnames hrest)

theorem preview_executed_complies {columns : List LiveColumn} {statements : List Ddl}
    {rest : List Event} {s' : Structure}
    (hnames : columns.map LiveColumn.name = ["age", "code"])
    (hrest : (Script.backend .sqlite).Complies (previewTable columns) rest s') :
    (Script.backend .sqlite).Complies (previewTable columns)
      (statements.flatMap previewExecuted ++ rest) s' := by
  induction statements with
  | nil => exact hrest
  | cons s statements ih =>
      exact preview_still hnames (fun _ h => nomatch h) (.executed _ _ _) <|
        preview_still hnames (fun _ h => nomatch h) (.attempted _ _) ih

theorem preview_planned_complies (index : String) : (Script.backend .sqlite).Complies
    (previewTable (previewBefore index)) (previewPlanned index)
      (previewTable (previewBefore index)) := by
  have hplanned : ∀ (change : Change) (record : ChangeRecord),
      Event.recorded (.of .sqlite change .planned) = .recorded record →
        record.outcome ≠ .applied := by
    rintro change _ ⟨⟩
    exact nofun
  have hnames := preview_before_names index
  refine preview_start_complies ?_
  exact preview_still hnames (hplanned _) (.unapplied _ _ (hplanned _ _ rfl)) <|
    preview_still hnames (hplanned _) (.unapplied _ _ (hplanned _ _ rfl)) (.nil _)

theorem preview_made_complies (index : String) : (Script.backend .sqlite).Complies
    (previewTable (previewBefore index)) (previewMade index) (previewTable previewAfter) := by
  have hmodify : Dialect.sqlite.carryOut previewModify (previewTable (previewBefore index)) =
      previewTable previewBetween := by
    have hcolumns : reservedPart ++ [previewAge, previewCode .unique].map (added .sqlite "users") =
        reservedPart ++ previewBetween := by
      decide +kernel
    have htable : previewModify.table = "users" := rfl
    rw [previewTable, Dialect.carry_out_only htable, previewTable, ← hcolumns]
    rfl
  have hdrop : Dialect.sqlite.carryOut (.dropIndex "users" "code" "index_users_code")
      (previewTable previewBetween) = previewTable previewAfter := by
    have hcolumns : Dialect.sqlite.carry (.dropIndex "users" "code" "index_users_code")
        (reservedPart ++ previewBetween) = reservedPart ++ previewAfter := by
      decide +kernel
    have htable : (Change.dropIndex "users" "code" "index_users_code").table = "users" := rfl
    rw [previewTable, Dialect.carry_out_only htable, hcolumns]
    rfl
  have hlast : (Script.backend .sqlite).Complies (previewTable previewBetween)
      [.recorded (.of .sqlite (.dropIndex "users" "code" "index_users_code") .applied)]
      (previewTable previewAfter) :=
    .changed rfl (hdrop ▸ .nil _)
  have hread : (Script.backend .sqlite).Complies (previewTable (previewBefore index))
      (.recorded (.of .sqlite previewModify .applied) ::
        .called (.describe "users") (.columns previewBetween) ::
        .attempted "LIST COLUMNS OF users" none ::
        ([Ddl.dropIndex "index_users_code" "users"].flatMap previewExecuted ++
          [.recorded (.of .sqlite (.dropIndex "users" "code" "index_users_code") .applied)]))
      (previewTable previewAfter) :=
    .changed rfl (hmodify ▸ preview_described preview_between_names
      (preview_executed_complies preview_between_names hlast))
  unfold previewMade
  rw [List.append_assoc]
  exact preview_start_complies (preview_executed_complies (preview_before_names index) hread)

end Synchronization

namespace Session

open Synchronization SyncOptions

variable {σ : Type}

/-- A dry run shows what the executing run does. Under engines that are exact from the same
structure on, both succeed for either value of force, and what they do not skip are the same changes
with the statements of these changes; at most an index that goes in SQLite is called in the dry run
what it was called at first, and in the executing run what a rebuild has called it. Where the
indexes have the names of the dialect from the beginning there is no difference at all. MySQL tables
are to have their user columns behind `id`. -/
theorem update_schema_foretold (b : Backend σ) (document : Json) (schema : Schema) (force : Bool)
    (initial final final' : Structure) (db db' : Handle σ)
    (hschema : Schema.ofJson document = .ok schema)
    (htables : (schema.tables.map Table.name).Nodup) (hinitial : WellFormed initial.users)
    (hled : b.dialect = .mysql → ∀ table columns, initial table = some columns → LedById columns)
    (hready : db.CanConnect) (hready' : db'.CanConnect)
    (hplanned : b.Complies initial ((updateSchema b schema (planning force)).trace db) final)
    (hmade : b.Complies initial ((updateSchema b schema (executing force)).trace db') final') :
    ∃ log log', ((updateSchema b schema (planning force)).run db).1 = .ok log ∧
      ((updateSchema b schema (executing force)).run db').1 = .ok log' ∧
      List.Forall₂ (Previews b.dialect initial) (shown b.dialect log)
        (shown b.dialect log') ∧
      ((b.dialect = .sqlite → OwnNames b.dialect initial.users) →
        shown b.dialect log = shown b.dialect log') := by
  have htells : Foretells b initial initial (updateSchema b schema (planning force))
      (updateSchema b schema (executing force)) fun log log' _ =>
        TellsLog b.dialect initial log log' := by
    have hlisted : ∀ existing : List String,
        (∀ table, table ∈ existing ↔ (initial.users table).isSome) →
        ∀ table ∈ schema.tables, existing.contains table.name = (initial table.name).isSome := by
      intro existing h table _
      rw [Bool.eq_iff_iff, List.contains_iff_mem, h, Structure.users, Option.isSome_map]
    unfold updateSchema
    refine (Foretells.of_yields Yields.tables Yields.tables (fun db => (Quiet.tables b db).1)
      fun db => (Quiet.tables b db).1).bind fun existing existing' mid hmid => ?_
    obtain ⟨rfl, ⟨-, hexisting⟩, -, hexisting'⟩ := hmid
    exact sync_tables_foretells htables (Schema.clean_of_of_json hschema)
      (fun table _ => hinitial.settleable table) hled (hlisted existing hexisting)
      (hlisted existing' hexisting') fun _ _ => rfl
  obtain ⟨log, log', ⟨hrun, -, -⟩, ⟨hrun', -⟩, hlog⟩ :=
    htells db db' final final' hready hready' hplanned hmade
  refine ⟨log, log', hrun, hrun', hlog.shown, fun hown => ?_⟩
  have hshown := hlog.shown
  refine List.forall₂_eq_eq_eq ▸ hshown.imp fun planned made h => ?_
  have hsame := h.change.eq hown
  exact Prod.ext hsame (by rw [h.plannedSql, h.madeSql, hsame])

/-- The statement above has instances in which an index goes after a rebuild. -/
theorem preview_foretold : ∃ log log',
    ((updateSchema (Script.backend .sqlite) previewSchema (planning true)).run
      (previewHandle "index_users_code")).1 = .ok log ∧
    ((updateSchema (Script.backend .sqlite) previewSchema (executing true)).run
      (previewHandle "index_users_code")).1 = .ok log' ∧
    shown .sqlite log = shown .sqlite log' := by
  obtain ⟨hplanned, hmade⟩ := preview_traces "index_users_code" (by decide)
  obtain ⟨log, log', hrun, hrun', -, hsame⟩ :=
    update_schema_foretold (Script.backend .sqlite) previewDocument previewSchema true
      (previewTable (previewBefore "index_users_code"))
      (previewTable (previewBefore "index_users_code")) (previewTable previewAfter)
      (previewHandle "index_users_code") (previewHandle "index_users_code") rfl (by decide)
      (preview_before_well_formed (by decide)) (fun h => nomatch h) ⟨_, .inl rfl⟩ ⟨_, .inl rfl⟩
      (hplanned ▸ preview_planned_complies _) (hmade ▸ preview_made_complies _)
  exact ⟨log, log', hrun, hrun', hsame fun _ => preview_own_names⟩

/-- Where an index has a name of its own and the table is rebuilt before the index goes, the dry run
calls the index by the old name and the executing run by the new one. -/
theorem renamed_index_not_foretold :
    Schema.ofJson previewDocument = .ok previewSchema ∧
    WellFormed (previewTable (previewBefore "by_code")).users ∧
    (Script.backend .sqlite).Complies (previewTable (previewBefore "by_code"))
      ((updateSchema (Script.backend .sqlite) previewSchema (planning true)).trace
        (previewHandle "by_code")) (previewTable (previewBefore "by_code")) ∧
    (Script.backend .sqlite).Complies (previewTable (previewBefore "by_code"))
      ((updateSchema (Script.backend .sqlite) previewSchema (executing true)).trace
        (previewHandle "by_code")) (previewTable previewAfter) ∧
    ∃ log log',
      ((updateSchema (Script.backend .sqlite) previewSchema (planning true)).run
        (previewHandle "by_code")).1 = .ok log ∧
      ((updateSchema (Script.backend .sqlite) previewSchema (executing true)).run
        (previewHandle "by_code")).1 = .ok log' ∧
      shown .sqlite log = [(previewModify, Dialect.sqlite.changeSql previewModify),
        (.dropIndex "users" "code" "by_code", ["DROP INDEX IF EXISTS by_code"])] ∧
      shown .sqlite log' = [(previewModify, Dialect.sqlite.changeSql previewModify),
        (.dropIndex "users" "code" "index_users_code",
          ["DROP INDEX IF EXISTS index_users_code"])] := by
  obtain ⟨hplanned, hmade⟩ := preview_traces "by_code" (by decide)
  refine ⟨rfl, preview_before_well_formed (by decide), hplanned ▸ preview_planned_complies _,
    hmade ▸ preview_made_complies _,
    [.of .sqlite previewModify .planned,
      .of .sqlite (.dropIndex "users" "code" "by_code") .planned],
    [.of .sqlite previewModify .applied,
      .of .sqlite (.dropIndex "users" "code" "index_users_code") .applied], ?_, ?_, ?_, ?_⟩
  all_goals decide +kernel

end Session

end SchemaKeeper

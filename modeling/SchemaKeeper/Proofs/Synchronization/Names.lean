import SchemaKeeper.Engine.Script
import SchemaKeeper.Proofs.Synchronization.Abreast
import SchemaKeeper.Proofs.Synchronization.Convergence
import SchemaKeeper.Proofs.Synchronization.Drops
import SchemaKeeper.Proofs.Synchronization.Pieces
import SchemaKeeper.Proofs.Synchronization.Statements

/-!
# Names in executed statements

The names that a forced synchronization writes into its statements are cleaned where they are
declared, and where a column is dropped. Two of them are not: the name of an index that makes way
for another one, and the names of the columns that the engine reports once a modification was
carried out, which a further rebuild of the table lists. These are written as they were reported.
`Session.update_schema_names` says that there are no others; `Session.odd_names_written` shows a run
in which such a name is no identifier.
-/

namespace SchemaKeeper

namespace Identifier

theorem IsClean.append {first second : String} (hfirst : IsClean first) (hsecond : IsClean second) :
    IsClean (first ++ second) := by
  constructor
  · intro hnil
    exact hfirst.1 (String.append_eq_empty_iff.mp hnil).1
  · intro c hc
    rw [String.toList_append, List.mem_append] at hc
    exact hc.elim (hfirst.2 c) (hsecond.2 c)

theorem clean_of_reserved : ∀ name ∈ reservedColumns, IsClean name := by
  decide

/-- The scratch table of a table of a clean name has a clean name. -/
theorem IsClean.scratch_name {t : String} (h : IsClean t) : IsClean (Dialect.scratchName t) :=
  h.append (by decide)

/-- Writing points as underscores keeps a name clean. -/
theorem IsClean.points_replaced {name : String} (h : IsClean name) :
    IsClean (String.ofList (Text.replaceChar '.' ['_'] name.toList)) := by
  unfold Text.replaceChar
  constructor
  · intro hnil
    rw [← String.toList_eq_nil_iff, String.toList_ofList, List.flatMap_eq_nil_iff] at hnil
    obtain ⟨c, hc⟩ := List.exists_mem_of_ne_nil name.toList
      fun hempty => h.1 (String.toList_eq_nil_iff.mp hempty)
    have hkept := hnil c hc
    split at hkept <;> cases hkept
  · intro c hc
    rw [String.toList_ofList] at hc
    obtain ⟨d, hd, hmem⟩ := List.mem_flatMap.mp hc
    split at hmem
    · cases List.mem_singleton.mp hmem
      decide
    · cases List.mem_singleton.mp hmem
      exact h.2 c hd

/-- An index that is named after its table and column has a clean name if these have. -/
theorem IsClean.index_name {t c : String} (d : Dialect) (ht : IsClean t) (hc : IsClean c) :
    IsClean (d.indexName t c) := by
  have hword : IsClean "index_" := by decide
  cases d with
  | mysql => exact hword.append hc
  | sqlite => exact (((hword.append ht).append (by decide)).append hc).points_replaced

end Identifier

namespace Event

/-- The column is in an answer of the engine that describes the table after a modification of the
table was carried out. -/
def ReportsAgain (d : Dialect) (table : String) (column : LiveColumn) (events : List Event) :
    Prop :=
  ∃ declared columns before after,
    events = before ++ .recorded (.of d (.modifyColumn table declared columns) .applied) :: after ∧
      Reports table column after

theorem Reports.append {table : String} {column : LiveColumn} {past : List Event}
    (h : Reports table column past) (events : List Event) :
    Reports table column (past ++ events) :=
  h.mono (List.subset_append_left _ _)

theorem ReportsAgain.append {d : Dialect} {table : String} {column : LiveColumn}
    {past : List Event} (h : ReportsAgain d table column past) (events : List Event) :
    ReportsAgain d table column (past ++ events) := by
  obtain ⟨declared, columns, before, after, rfl, hreports⟩ := h
  exact ⟨declared, columns, before, after ++ events, by simp, hreports.append events⟩

/-- What is reported after a modification was carried out is reported again. -/
theorem reports_again_of_recorded {d : Dialect} {table : String} {declared : Column}
    {columns : List Column} {column : LiveColumn} {past events : List Event}
    (hpast : .recorded (.of d (.modifyColumn table declared columns) .applied) ∈ past)
    (h : Reports table column events) : ReportsAgain d table column (past ++ events) := by
  obtain ⟨before, after, rfl⟩ := List.append_of_mem hpast
  exact ⟨declared, columns, before, after ++ events, by simp,
    h.mono (List.subset_append_right _ _)⟩

/-- The columns in the answers that describe tables. -/
def described (events : List Event) : List LiveColumn :=
  events.flatMap fun
    | .called (.describe _) (.columns columns) => columns
    | _ => []

theorem Reports.mem_described {table : String} {column : LiveColumn} {events : List Event}
    (h : Reports table column events) : column ∈ described events := by
  obtain ⟨name, columns, -, hevent, hcolumn⟩ := h
  exact List.mem_flatMap.mpr ⟨_, hevent, hcolumn⟩

theorem ReportsAgain.reports {d : Dialect} {table : String} {column : LiveColumn}
    {events : List Event} (h : ReportsAgain d table column events) :
    Reports table column events := by
  obtain ⟨declared, columns, before, after, rfl, hreports⟩ := h
  exact hreports.mono
    (List.Subset.trans (List.subset_cons_self _ _) (List.subset_append_right _ _))

end Event

namespace Session

variable {σ α β : Type}

/-- After any past of the given kind for which the invariant holds, the session goes on so that the
invariant holds of the past together with the events, and if it succeeds its result is as stated. -/
def Upholds (inv pre : List Event → Prop) (op : Session σ α) (post : α → List Event → Prop) :
    Prop :=
  ∀ past, inv past → pre past → op.Shows fun result events =>
    inv (past ++ events) ∧ ∀ a, result = .ok a → post a (past ++ events)

namespace Upholds

variable {inv pre : List Event → Prop} {op : Session σ α} {post : α → List Event → Prop}

theorem mono {pre' : List Event → Prop} (h : Upholds inv pre op post)
    (hpre : ∀ past, pre' past → pre past) : Upholds inv pre' op post :=
  fun past hinv hpast => h past hinv (hpre past hpast)

protected theorem pure {a : α} (h : ∀ past, pre past → post a past) :
    Upholds inv pre (pure a : Session σ α) post := by
  refine fun past hinv hpre => Shows.pure ?_
  rw [List.append_nil]
  refine ⟨hinv, ?_⟩
  rintro _ ⟨⟩
  exact h past hpre

/-- A second session finds the past as the first one leaves it. -/
protected theorem bind {f : α → Session σ β} [Grows op] [∀ a, Grows (f a)]
    {post' : β → List Event → Prop} (hop : Upholds inv pre op post)
    (hf : ∀ a, Upholds inv (post a) (f a) post') : Upholds inv pre (op >>= f) post' := by
  intro past hinv hpre db
  obtain ⟨hfirst, hmiddle⟩ := hop past hinv hpre db
  rw [result_bind]
  rcases h : (op.run db).1 with e | a
  · rw [trace_bind_error h]
    exact ⟨hfirst, nofun⟩
  · rw [trace_bind h, ← List.append_assoc]
    exact hf a _ hfirst (hmiddle a h) _

theorem map [Grows op] {g : α → β} {post' : β → List Event → Prop} (hop : Upholds inv pre op post)
    (h : ∀ a past, post a past → post' (g a) past) :
    Upholds inv pre (op >>= fun a => pure (g a)) post' :=
  hop.bind fun a => .pure (h a)

theorem built_bind {r : Except BuildError α} {f : α → Session σ β} {post' : β → List Event → Prop}
    (hf : ∀ a, r = .ok a → Upholds inv pre (f a) post') :
    Upholds inv pre (Session.built r >>= f) post' := by
  intro past hinv hpre
  refine Shows.built_bind (fun e _ => ?_) fun a ha => hf a ha past hinv hpre
  rw [List.append_nil]
  exact ⟨hinv, nofun⟩

/-- What is known without looking at the past may be used throughout. -/
theorem of_known {p : Prop} (h : p → Upholds inv pre op post) :
    Upholds inv (fun past => p ∧ pre past) op post :=
  fun past hinv hpre => h hpre.1 past hinv hpre.2

end Upholds

end Session

namespace Synchronization

open Session

variable {σ : Type} {b : Backend σ} {d : Dialect} {tables : List Table} {table : Table}
  {live : List LiveColumn} {past : List Event}

/-- Once a history is of this kind, it stays so. -/
def Lasting (p : List Event → Prop) : Prop := ∀ past events, p past → p (past ++ events)

/-- All statements that were sent are of this kind. -/
def SentOnly (p : Ddl → List Event → Prop) (past : List Event) : Prop :=
  ∀ s reply, .called (.execute (.ddl s)) reply ∈ past → p s past

section SentOnly

variable {kind : Ddl → List Event → Prop} (hkind : ∀ s, Lasting (kind s))

include hkind

/-- Where nothing is sent, what was sent is still of this kind. -/
theorem SentOnly.quiet {events : List Event} (h : SentOnly kind past)
    (hquiet : Event.commands events = []) : SentOnly kind (past ++ events) := by
  intro s reply hsent
  rcases List.mem_append.mp hsent with hsent | hsent
  · exact hkind s _ _ (h s reply hsent)
  · exact absurd hsent (Event.not_sent_of_commands_nil hquiet)

/-- Columns that are read are reported with the reading. -/
theorem user_columns_send (t : String) {p : List Event → Prop}
    {post : List LiveColumn → List Event → Prop}
    (h : ∀ past events live, p past → (∀ c ∈ live, Event.Reports t c events) →
      post live (past ++ events)) :
    Upholds (SentOnly kind) p (userColumns b t) post := by
  have hreported : (userColumns b t).Shows fun result events => ∀ live, result = .ok live →
      ∀ c ∈ live, Event.Reports t c events ∧ Identifier.isReserved c.name = false :=
    live_columns_reported b .forced t true
  intro past hsent hpast db
  refine ⟨hsent.quiet hkind (Quiet.user_columns b t db).2, fun live hrun => ?_⟩
  exact h past _ live hpast fun c hc => (hreported db live hrun c hc).1

/-- A change whose statements are of this kind is carried out, planned or skipped as the options
say, and recorded. -/
theorem apply_sends (b : Backend σ) (options : SyncOptions) {p : List Event → Prop}
    (hp : Lasting p) {change : Change}
    (h : ∀ past, p past → ∀ s ∈ b.dialect.statements change, kind s past) :
    Upholds (SentOnly kind) p (apply b options change) fun record past =>
      record = .of b.dialect change (outcomeOf options change) ∧ .recorded record ∈ past ∧
        p past := by
  intro past hsentOnly hpast db
  have hpart := apply_part_of b options change db
  constructor
  · intro s reply hsent
    rcases List.mem_append.mp hsent with hsent | hsent
    · exact hkind s _ _ (hsentOnly s reply hsent)
    · obtain ⟨-, hs⟩ := (hpart _ hsent).sent s reply rfl
      exact hkind s _ _ (h past hpast s hs)
  · intro record hrun
    obtain ⟨hrecords, -⟩ := apply_accounts b options change [] db record hrun
    have hrecorded : .recorded record ∈ (apply b options change).trace db := by
      refine Event.recorded_of_mem_records ?_
      rw [← List.nil_append (Event.records _), hrecords]
      exact List.mem_singleton_self _
    exact ⟨(hpart _ hrecorded).recorded record rfl, List.mem_append_right _ hrecorded,
      hp _ _ hpast⟩

end SentOnly

/-- A name that a statement has from the engine as it is: that of an index on a declared column,
where it is dropped, or in a rebuild that of a column that was reported after a modification of the
table, or of its index. -/
inductive Raw (d : Dialect) (tables : List Table) (events : List Event) : Ddl → String → Prop where
  | index (t : Table) (column : LiveColumn) (name : String) (htable : t ∈ tables)
      (hdeclared : column.name ∈ t.columns.map Column.name)
      (hreports : Event.Reports t.name column events) (hname : column.indexName = some name) :
      Raw d tables events (.dropIndex name t.name) name
  | column (t : Table) (column : LiveColumn) (columns : List Column) (s : Ddl) (name : String)
      (hd : d = .sqlite) (htable : t ∈ tables) (hs : s ∈ Dialect.rebuild t.name columns)
      (hreports : Event.ReportsAgain d t.name column events)
      (hname : name = column.name ∨ name = d.indexName t.name column.name) :
      Raw d tables events s name

theorem Raw.append {s : Ddl} {name : String} (h : Raw d tables past s name)
    (events : List Event) : Raw d tables (past ++ events) s name := by
  cases h with
  | index t column _ htable hdeclared hreports hname =>
      exact .index t column name htable hdeclared (hreports.append events) hname
  | column t column columns _ _ hd htable hs hreports hname =>
      exact .column t column columns s name hd htable hs (hreports.append events) hname

/-- The names of a statement are clean or what the engine reported. -/
def Allowed (d : Dialect) (tables : List Table) (past : List Event) (s : Ddl) : Prop :=
  ∀ name ∈ s.names d, Identifier.IsClean name ∨ Raw d tables past s name

theorem Allowed.append {s : Ddl} (h : Allowed d tables past s) (events : List Event) :
    Allowed d tables (past ++ events) s :=
  fun name hname => (h name hname).imp_right fun hraw => hraw.append events

/-- All statements that were sent are of allowed names. -/
def Vouched (d : Dialect) (tables : List Table) (past : List Event) : Prop :=
  ∀ s reply, .called (.execute (.ddl s)) reply ∈ past → Allowed d tables past s

/-- The names of a statement are allowed if those of its change are. -/
theorem allowed_of_names {change : Change} {s : Ddl} (hs : s ∈ d.statements change)
    (h : ∀ name ∈ change.names d, Identifier.IsClean name ∨ Raw d tables past s name) :
    Allowed d tables past s := by
  intro name hname
  rcases List.mem_append.mp (Change.statement_names hs hname) with hreserved | hown
  · exact .inl (Identifier.clean_of_reserved name hreserved)
  · exact h name hown

/-- What a statement is allowed to name it may name later on. -/
theorem allowed_lasting (d : Dialect) (tables : List Table) (s : Ddl) :
    Lasting fun past => Allowed d tables past s :=
  fun _ events h => h.append events

/-- A session that sends nothing upholds that statements are vouched for. -/
theorem vouched_of_quiet {events : List Event} (h : Vouched d tables past)
    (hquiet : Event.commands events = []) : Vouched d tables (past ++ events) :=
  SentOnly.quiet (allowed_lasting d tables) h hquiet

theorem applied_not_skipped (d : Dialect) (change : Change) :
    (ChangeRecord.of d change .applied).isSkipped = false := rfl

/-- A change whose statements are of allowed names is carried out and recorded. -/
theorem apply_upholds (b : Backend σ) {p : List Event → Prop} (hp : Lasting p) {change : Change}
    (hallowed : ∀ past, p past → ∀ s ∈ b.dialect.statements change,
      Allowed b.dialect tables past s) :
    Upholds (Vouched b.dialect tables) p (apply b .forced change) fun record past =>
      record = .of b.dialect change .applied ∧ .recorded record ∈ past ∧ p past := by
  have hforced : outcomeOf .forced change = .applied := by
    unfold outcomeOf
    cases change.isDestructive <;> rfl
  have happly := apply_sends (allowed_lasting b.dialect tables) b .forced hp hallowed
  rw [hforced] at happly
  exact happly

theorem apply_clean_upholds (b : Backend σ) (tables : List Table) {p : List Event → Prop}
    (hp : Lasting p) {change : Change}
    (h : ∀ name ∈ change.names b.dialect, Identifier.IsClean name) :
    Upholds (Vouched b.dialect tables) p (apply b .forced change) fun record past =>
      record = .of b.dialect change .applied ∧ .recorded record ∈ past ∧ p past :=
  apply_upholds b hp fun _ _ _ hs => allowed_of_names hs fun name hname => .inl (h name hname)

/-- The name of a column is clean or was reported after a modification of the table. -/
def NameKnown (d : Dialect) (table : String) (past : List Event) (name : String) : Prop :=
  Identifier.IsClean name ∨
    ∃ reported, Event.ReportsAgain d table reported past ∧ reported.name = name

/-- What is known of a live column: its name, and that its index has a clean name or one that was
reported for a column of this name. -/
structure Known (d : Dialect) (table : String) (past : List Event) (c : LiveColumn) : Prop where
  name : NameKnown d table past c.name
  index : ∀ index, c.indexName = some index → Identifier.IsClean index ∨
    ∃ reported, Event.Reports table reported past ∧ reported.name = c.name ∧
      reported.indexName = some index

/-- The names of all live columns are known. -/
def AllKnown (d : Dialect) (table : String) (live : List LiveColumn) (past : List Event) : Prop :=
  ∀ c ∈ live, Known d table past c

theorem all_known_lasting (d : Dialect) (table : String) (live : List LiveColumn) :
    Lasting (AllKnown d table live) := by
  intro past events h c hc
  obtain ⟨hname, hindex⟩ := h c hc
  constructor
  · refine hname.imp_right ?_
    rintro ⟨reported, hreports, heq⟩
    exact ⟨reported, hreports.append events, heq⟩
  · refine fun index h => (hindex index h).imp_right ?_
    rintro ⟨reported, hreports, heq⟩
    exact ⟨reported, hreports.append events, heq⟩

/-- A new index name does not matter to what is known if it is clean. -/
theorem Known.reindex {c c' : LiveColumn} {t : String} (h : Known d t past c)
    (hname : c'.name = c.name)
    (hindex : ∀ index, c'.indexName = some index → Identifier.IsClean index) :
    Known d t past c' := by
  constructor
  · rw [hname]
    exact h.name
  · exact fun index h => .inl (hindex index h)

section Column

variable (htable : table ∈ tables) (hclean : Identifier.IsClean table.name)

include htable hclean

/-- A rebuild lists known columns, and makes names of indexes from their names. -/
theorem rebuild_name_allowed {columns : List Column} {s : Ddl}
    (hs : s ∈ Dialect.rebuild table.name columns)
    (hcolumns : ∀ c ∈ columns, NameKnown .sqlite table.name past c.name) :
    ∀ name ∈ Change.rebuildNames table.name columns,
      Identifier.IsClean name ∨ Raw .sqlite tables past s name := by
  intro name hname
  simp only [Change.rebuildNames, List.mem_append, List.mem_cons, List.mem_map, List.not_mem_nil,
    or_false] at hname
  rcases hname with ((rfl | rfl) | ⟨c, hc, rfl⟩) | ⟨c, hc, rfl⟩
  · exact .inl hclean
  · exact .inl hclean.scratch_name
  · refine (hcolumns c hc).imp_right ?_
    rintro ⟨reported, hreports, heq⟩
    exact .column table reported columns s _ rfl htable hs hreports (.inl heq.symm)
  · refine (hcolumns c hc).imp (hclean.index_name .sqlite) ?_
    rintro ⟨reported, hreports, heq⟩
    exact .column table reported columns s _ rfl htable hs hreports (.inr (by rw [heq]))

/-- The statements of a modification are of allowed names if its column is of a clean name and all
columns of the table are known by name. -/
theorem modify_allowed {column : Column} {columns : List Column}
    (hcolumn : Identifier.IsClean column.name)
    (hcolumns : ∀ c ∈ columns, NameKnown d table.name past c.name) :
    ∀ s ∈ d.statements (.modifyColumn table.name column columns), Allowed d tables past s := by
  intro s hs
  refine allowed_of_names hs fun name hname => ?_
  cases d with
  | mysql =>
      simp only [Change.names, List.mem_cons, List.not_mem_nil, or_false] at hname
      rcases hname with rfl | rfl
      · exact .inl hclean
      · exact .inl hcolumn
  | sqlite => exact rebuild_name_allowed htable hclean hs hcolumns name hname

end Column

/-- What is known of columns that were read is what was reported with the reading. -/
theorem user_columns_uphold (t : String) {p : List Event → Prop}
    {post : List LiveColumn → List Event → Prop}
    (h : ∀ past events live, p past → (∀ c ∈ live, Event.Reports t c events) →
      post live (past ++ events)) :
    Upholds (Vouched b.dialect tables) p (userColumns b t) post :=
  user_columns_send (allowed_lasting b.dialect tables) t h

/-- A modification that is carried out gives the column a new definition in the list of the columns
of its table, and is followed by another reading of the table. -/
theorem modify_forced (b : Backend σ) (t : String) (declared : Column) (current : LiveColumn)
    (live : List LiveColumn) :
    ∃ column columns, column.name = declared.name ∧
      columns = (replaceFirst declared.name (fun c => { c with spec := column }) live).map
        LiveColumn.spec ∧
      modify b .forced t declared current live =
        apply b .forced (.modifyColumn t column columns) >>= fun record =>
        if record.isSkipped then pure (live, [record])
        else userColumns b t >>= fun live => pure (live, [record]) :=
  ⟨{ declared with index := current.spec.index }, _, rfl, rfl, rfl⟩

/-- The columns that are read after a modification are known. -/
theorem all_known_of_reports {t : String} {declared : Column} {columns : List Column}
    {events : List Event}
    (hpast : .recorded (.of d (.modifyColumn t declared columns) .applied) ∈ past)
    (h : ∀ c ∈ live, Event.Reports t c events) : AllKnown d t live (past ++ events) := by
  intro c hc
  constructor
  · exact .inr ⟨c, Event.reports_again_of_recorded hpast (h c hc), rfl⟩
  · exact fun index hindex =>
      .inr ⟨c, (h c hc).mono (List.subset_append_right _ _), rfl, hindex⟩

/-- The columns that a modification lists are known by name. -/
theorem all_known_listed {t : String} {column : Column} (name : String)
    (h : AllKnown d t live past) (hcolumn : Identifier.IsClean column.name) :
    ∀ c ∈ (replaceFirst name (fun c => { c with spec := column }) live).map LiveColumn.spec,
      NameKnown d t past c.name :=
  List.forall_mem_map.mpr <|
    forall_mem_replace_first (fun c hc => (h c hc).name) fun _ _ => .inl hcolumn

/-- What is known is still known if the first column of a name gets an index of a clean name, or
none. -/
theorem all_known_reindexed {t name : String} {f : LiveColumn → LiveColumn}
    (h : AllKnown d t live past) (hname : ∀ c, (f c).name = c.name)
    (hindex : ∀ c index, (f c).indexName = some index → Identifier.IsClean index) :
    AllKnown d t (replaceFirst name f live) past :=
  forall_mem_replace_first h fun old hold =>
    (h old (List.mem_of_find?_eq_some hold)).reindex (hname old) (hindex old)

section Column

variable {declared : Column} (htable : table ∈ tables) (hclean : Identifier.IsClean table.name)
  (hname : Identifier.IsClean declared.name)

include hclean hname

include htable in
/-- Where the definition of a column changes, what is known of the columns is what was read after
it. -/
theorem redefine_upholds (current : LiveColumn) :
    Upholds (Vouched b.dialect tables) (AllKnown b.dialect table.name live)
      (redefine b .forced table.name declared current live)
      fun p past => AllKnown b.dialect table.name p.1 past := by
  unfold redefine
  split
  · obtain ⟨column, columns, hcolumn, rfl, heq⟩ :=
      modify_forced b table.name declared current live
    rw [← hcolumn] at hname
    rw [heq]
    have happly := apply_upholds b (all_known_lasting b.dialect table.name live)
      fun past hpast => modify_allowed htable hclean hname
        (all_known_listed declared.name hpast hname)
    refine happly.bind fun record => .of_known ?_
    rintro rfl
    rw [applied_not_skipped, if_neg Bool.false_ne_true]
    exact (user_columns_uphold table.name fun past events live hpast hreports =>
      all_known_of_reports hpast.1 hreports).map fun _ _ h => h
  · exact .pure fun _ h => h

/-- The index that is added has a name of the dialect's own making. -/
theorem add_index_upholds :
    Upholds (Vouched b.dialect tables) (AllKnown b.dialect table.name live)
      (addIndex b .forced table.name declared false live)
      fun p past => AllKnown b.dialect table.name p.1 past := by
  have hindex := hclean.index_name b.dialect hname
  unfold addIndex
  split
  · exact .pure fun _ h => h
  · have hnames : ∀ name ∈
        (Change.addIndex table.name declared.name declared.index).names b.dialect,
        Identifier.IsClean name := by
      simp [Change.names, hclean, hname, hindex]
    rw [if_neg Bool.false_ne_true]
    refine (apply_clean_upholds b tables (all_known_lasting _ _ live) hnames).map
      fun record past hpast => ?_
    refine all_known_reindexed hpast.2.2 (fun _ => rfl) ?_
    rintro _ _ ⟨⟩
    exact hindex

include htable in
/-- The index that goes has the name under which it was reported, or one of the dialect's own
making. -/
theorem drop_index_allowed (hdeclared : declared ∈ table.columns) {current : LiveColumn}
    (hcurrent : current.name = declared.name) (hknown : Known d table.name past current) :
    ∀ s ∈ d.statements (.dropIndex table.name declared.name
      (current.indexName.getD (d.indexName table.name declared.name))),
      Allowed d tables past s := by
  have hindex := hclean.index_name d hname
  intro s hs
  refine allowed_of_names hs fun name hn => ?_
  cases List.mem_singleton.mp hs
  simp only [Change.names, List.mem_cons, List.not_mem_nil, or_false] at hn
  rcases hn with rfl | rfl
  · exact .inl hclean
  · cases hlive : current.indexName with
    | none => exact .inl hindex
    | some index =>
        refine (hknown.index index hlive).imp_right ?_
        rintro ⟨reported, hreports, heq, hreported⟩
        refine .index table reported index htable ?_ hreports hreported
        rw [heq, hcurrent]
        exact List.mem_map_of_mem hdeclared

include htable in
theorem sync_index_upholds (hdeclared : declared ∈ table.columns) :
    Upholds (Vouched b.dialect tables) (AllKnown b.dialect table.name live)
      (syncIndex b .forced table.name declared live)
      fun p past => AllKnown b.dialect table.name p.1 past := by
  cases hfind : live.find? fun c => c.name = declared.name with
  | none =>
      unfold syncIndex
      rw [hfind]
      exact .pure fun _ h => h
  | some current =>
      have hcurrent : current.name = declared.name := by simpa using List.find?_some hfind
      have hmem := List.mem_of_find?_eq_some hfind
      rw [sync_index_some hfind]
      split
      · exact .pure fun _ h => h
      · split
        · have happly := apply_upholds b (all_known_lasting b.dialect table.name live)
            fun past hpast => drop_index_allowed htable hclean hname hdeclared hcurrent
              (hpast current hmem)
          refine happly.bind fun record => .of_known ?_
          rintro rfl
          rw [applied_not_skipped, if_neg Bool.false_ne_true]
          refine ((add_index_upholds hclean hname).mono fun past hpast => ?_).map fun _ _ h => h
          exact all_known_reindexed hpast.2 (fun _ => rfl) fun _ _ h => nomatch h
        · exact add_index_upholds hclean hname

include htable in
theorem sync_column_upholds {after : String} (hdeclared : declared ∈ table.columns)
    (hafter : Identifier.IsClean after) :
    Upholds (Vouched b.dialect tables) (AllKnown b.dialect table.name live)
      (syncColumn b .forced table.name after declared live)
      fun p past => AllKnown b.dialect table.name p.1 past := by
  cases hfind : live.find? fun c => c.name = declared.name with
  | none =>
      have hindex := hclean.index_name b.dialect hname
      have hnames : ∀ name ∈ (Change.addColumn table.name declared after).names b.dialect,
          Identifier.IsClean name := by
        simp [Change.names, hclean, hname, hafter, hindex]
      rw [sync_column_none hfind]
      refine (apply_clean_upholds b tables (all_known_lasting _ _ live) hnames).map
        fun record past hpast c hc => ?_
      rcases List.mem_cons.mp ((insert_after_perm after _ live).mem_iff.mp hc) with rfl | hc
      · refine ⟨.inl hname, fun index h => .inl ?_⟩
        unfold added at h
        split at h
        · cases h
          exact hindex
        · cases h
      · exact hpast.2.2 c hc
  | some current =>
      rw [sync_column_some hfind]
      refine (redefine_upholds htable hclean hname current).bind fun p => ?_
      exact (sync_index_upholds htable hclean hname hdeclared).map fun _ _ h => h

end Column

/-- Bringing columns about uses known names, one column after the other. -/
theorem sync_columns_uphold (htable : table ∈ tables) (hclean : Identifier.IsClean table.name)
    {columns : List Column} (hcolumns : columns ⊆ table.columns)
    (hnames : ∀ c ∈ table.columns, Identifier.IsClean c.name) {after : String}
    (hafter : Identifier.IsClean after) (live : List LiveColumn) :
    Upholds (Vouched b.dialect tables) (AllKnown b.dialect table.name live)
      (syncColumns b .forced table.name after columns live) fun _ _ => True := by
  induction columns generalizing after live with
  | nil => exact .pure fun _ _ => trivial
  | cons declared rest ih =>
      obtain ⟨hdeclared, hrest⟩ := List.cons_subset.mp hcolumns
      have hname := hnames declared hdeclared
      rw [sync_columns_cons]
      split
      · exact ih hrest hafter live
      · refine (sync_column_upholds htable hclean hname hdeclared hafter).bind fun p => ?_
        exact (ih hrest hname p.1).map fun _ _ h => h

/-- A column that is dropped goes with its index under cleaned names. -/
theorem drop_of_names {t : String} {column : LiveColumn} {change : Change}
    (ht : Identifier.IsClean t) (h : dropOf t column = .ok change) :
    ∀ name ∈ change.names d, Identifier.IsClean name := by
  obtain ⟨name, index, hname, hsanitized, rfl⟩ := drop_of_eq h
  have hclean := Identifier.is_clean_of_sanitize hname
  have hindex : ∀ n ∈ index, Identifier.IsClean n := by
    intro n hn
    obtain ⟨raw, -, hraw⟩ := hsanitized n hn
    exact Identifier.is_clean_of_sanitize hraw
  simpa [Change.names, ht, hclean] using hindex

/-- The columns to be dropped are not among those that are left. -/
theorem drop_all_upholds (ht : Identifier.IsClean table.name) {p : List Event → Prop}
    (hp : Lasting p) (doomed live : List LiveColumn) :
    Upholds (Vouched b.dialect tables) p (dropAll b .forced table.name doomed live)
      fun q past => p past ∧ ∀ c ∈ q.1, c ∈ live ∧ ∀ x ∈ doomed, c.name ≠ x.name := by
  induction doomed generalizing live with
  | nil => exact .pure fun past h => ⟨h, fun c hc => ⟨hc, List.forall_mem_nil _⟩⟩
  | cons column rest ih =>
      rw [drop_all_cons]
      refine .built_bind fun change hchange => ?_
      refine (apply_clean_upholds b tables hp (drop_of_names ht hchange)).bind
        fun record => .of_known ?_
      rintro rfl
      rw [applied_not_skipped, if_neg Bool.false_ne_true]
      refine ((ih _).mono fun past h => h.2).map fun q past h => ⟨h.1, fun c hc => ?_⟩
      obtain ⟨hleft, hothers⟩ := h.2 c hc
      obtain ⟨hlive, hne⟩ := List.mem_filter.mp hleft
      exact ⟨hlive, List.forall_mem_cons.mpr ⟨by simpa using hne, hothers⟩⟩

/-- A table's creation is of clean names. -/
theorem ensure_table_upholds (hclean : Identifier.IsClean table.name) (present : Bool) :
    Upholds (Vouched b.dialect tables) (fun _ => True) (ensureTable b .forced table.name present)
      fun _ _ => True := by
  unfold ensureTable
  split
  · exact .pure fun _ h => h
  · have hnames : ∀ name ∈ (Change.createTable table.name).names b.dialect,
        Identifier.IsClean name := by
      simp [Change.names, hclean]
    exact (apply_clean_upholds b tables (fun _ _ h => h) hnames).map fun _ _ h => h.2.2

/-- What is left of the reported columns once the stale ones are gone is declared, so that it is of
a clean name. -/
theorem all_known_of_kept {kept : List LiveColumn}
    (hnames : ∀ c ∈ table.columns, Identifier.IsClean c.name)
    (hreports : ∀ c ∈ live, Event.Reports table.name c past)
    (hkept : ∀ c ∈ kept, c ∈ live ∧ ∀ x ∈ stale table live, c.name ≠ x.name) :
    AllKnown d table.name kept past := by
  intro c hc
  obtain ⟨hlive, hstale⟩ := hkept c hc
  have hdeclared : c.name ∈ table.columns.map Column.name := by
    by_contra hundeclared
    exact hstale c (List.mem_filter.mpr ⟨hlive, by simpa using hundeclared⟩) rfl
  obtain ⟨declared, hmem, heq⟩ := List.mem_map.mp hdeclared
  refine ⟨.inl (heq ▸ hnames declared hmem), fun index hindex => .inr ?_⟩
  exact ⟨c, hreports c hlive, rfl, hindex⟩

theorem sync_table_upholds (htable : table ∈ tables) (hclean : Identifier.IsClean table.name)
    (hnames : ∀ c ∈ table.columns, Identifier.IsClean c.name) (present : Bool) :
    Upholds (Vouched b.dialect tables) (fun _ => True) (syncTable b .forced table present)
      fun _ _ => True := by
  have hread : liveColumns b .forced table.name present = userColumns b table.name := by
    unfold liveColumns
    exact if_neg (by simp [SyncOptions.forced])
  have hlasting : ∀ live : List LiveColumn,
      Lasting fun past => ∀ c ∈ live, Event.Reports table.name c past :=
    fun _ _ events h c hc => (h c hc).append events
  rw [sync_table_eq, hread]
  have hreading : Upholds (Vouched b.dialect tables) (fun _ => True) (userColumns b table.name)
      fun live past => ∀ c ∈ live, Event.Reports table.name c past :=
    user_columns_uphold table.name fun past events live _ h c hc =>
      (h c hc).mono (List.subset_append_right _ _)
  refine (ensure_table_upholds hclean present).bind fun created => hreading.bind fun live => ?_
  refine (drop_all_upholds hclean (hlasting live) (stale table live) live).bind fun q => ?_
  refine ((sync_columns_uphold htable hclean (List.Subset.refl _) hnames (by decide) q.1).mono
    fun past h => ?_).map fun _ _ h => h
  exact all_known_of_kept hnames h.1 h.2

theorem sync_tables_uphold {rest : List Table} (hrest : rest ⊆ tables)
    (hclean : ∀ table ∈ tables, Identifier.IsClean table.name)
    (hnames : ∀ table ∈ tables, ∀ c ∈ table.columns, Identifier.IsClean c.name)
    (existing : List String) :
    Upholds (Vouched b.dialect tables) (fun _ => True) (syncTables b .forced rest existing)
      fun _ _ => True := by
  induction rest generalizing existing with
  | nil => exact .pure fun _ h => h
  | cons table rest ih =>
      obtain ⟨htable, hrest⟩ := List.cons_subset.mp hrest
      rw [sync_tables_cons]
      refine (sync_table_upholds htable (hclean table htable) (hnames table htable) _).bind
        fun records => ?_
      exact (ih hrest _).map fun _ _ h => h

/-- The names that a synchronization takes over from the engine are clean: those of the indexes on
declared columns and, where a modification rebuilds the table, those of the columns that are
reported after it. -/
structure ReportsClean (d : Dialect) (tables : List Table) (events : List Event) : Prop where
  index : ∀ t ∈ tables, ∀ column, Event.Reports t.name column events →
    column.name ∈ t.columns.map Column.name →
    ∀ index, column.indexName = some index → Identifier.IsClean index
  column : d = .sqlite → ∀ t ∈ tables, ∀ column, Event.ReportsAgain d t.name column events →
    Identifier.IsClean column.name

/-- It is enough that the engine describes columns of clean names with indexes of clean names. -/
theorem ReportsClean.of_described {events : List Event}
    (h : ∀ c ∈ Event.described events, Identifier.IsClean c.name ∧
      ∀ index ∈ c.indexName, Identifier.IsClean index) : ReportsClean d tables events :=
  ⟨fun _ _ c hreports _ index hindex => (h c hreports.mem_described).2 index hindex,
    fun _ _ _ c hreports => (h c hreports.reports.mem_described).1⟩

/-- What is written as it was reported is clean if the reports are. -/
theorem Raw.clean {s : Ddl} {name : String} (h : Raw d tables past s name)
    (hreports : ReportsClean d tables past)
    (htables : ∀ t ∈ tables, Identifier.IsClean t.name) : Identifier.IsClean name := by
  cases h with
  | index t column _ htable hdeclared hreported hname =>
      exact hreports.index t htable column hreported hdeclared name hname
  | column t column columns _ _ hd htable hs hreported hname =>
      have hcolumn := hreports.column hd t htable column hreported
      rcases hname with rfl | rfl
      · exact hcolumn
      · exact (htables t htable).index_name d hcolumn

/-- All that a synchronization executes are definition statements. -/
theorem ddl_of_sent (b : Backend σ) (schema : Schema) (options : SyncOptions) (db : Handle σ)
    {command : Command} {reply : Reply}
    (h : .called (.execute command) reply ∈ (updateSchema b schema options).trace db) :
    ∃ s, command = .ddl s := by
  obtain ⟨sent, hcommands, -⟩ := (update_schema_carried b schema options db).sent
  have hmem := Event.mem_commands h
  rw [hcommands, List.mem_append] at hmem
  rcases hmem with hmem | hmem
  · obtain ⟨record, -, hrecord⟩ := List.mem_flatMap.mp hmem
    obtain ⟨s, -, rfl⟩ := List.mem_map.mp hrecord
    exact ⟨s, rfl⟩
  · obtain ⟨s, -, rfl⟩ := List.mem_map.mp hmem
    exact ⟨s, rfl⟩

end Synchronization

namespace Session

open Synchronization

variable {σ : Type}

theorem update_schema_vouched (b : Backend σ) {schema : Schema}
    (hclean : ∀ table ∈ schema.tables, Identifier.IsClean table.name)
    (hnames : ∀ table ∈ schema.tables, ∀ c ∈ table.columns, Identifier.IsClean c.name)
    (db : Handle σ) :
    Vouched b.dialect schema.tables ((updateSchema b schema .forced).trace db) := by
  have hlisting : Upholds (Vouched b.dialect schema.tables) (fun _ => True) (Session.tables b)
      fun _ _ => True :=
    fun past hvouched _ db => ⟨vouched_of_quiet hvouched (Quiet.tables b db).2, fun _ _ => trivial⟩
  have hwhole : Upholds (Vouched b.dialect schema.tables) (fun _ => True)
      (updateSchema b schema .forced) fun _ _ => True :=
    hlisting.bind fun existing => sync_tables_uphold (List.Subset.refl _) hclean hnames existing
  have hempty : Vouched b.dialect schema.tables [] := fun _ _ h => nomatch h
  exact (hwhole [] hempty trivial db).1

/-- Every statement that a forced synchronization executes is the text of its pieces, and the names
among these are clean or what the engine reported: an index on a declared column that goes, or a
column that was reported after a modification and is listed by a rebuild. If what is reported there
is clean, all names are. -/
theorem update_schema_names (b : Backend σ) (document : Json) (schema : Schema)
    (hschema : Schema.ofJson document = .ok schema) (db : Handle σ) :
    ∀ command reply,
      .called (.execute command) reply ∈ (updateSchema b schema .forced).trace db →
      ∃ s : Ddl, command = .ddl s ∧
        command.sql b.dialect = Ddl.joinPieces b.dialect (s.pieces b.dialect) ∧
        (∀ name ∈ s.names b.dialect, Identifier.IsClean name ∨
          Raw b.dialect schema.tables ((updateSchema b schema .forced).trace db) s name) ∧
        (ReportsClean b.dialect schema.tables ((updateSchema b schema .forced).trace db) →
          ∀ name ∈ s.names b.dialect, Identifier.IsClean name) := by
  intro command reply hsent
  have hclean := Schema.clean_of_of_json hschema
  have hnames := Schema.clean_columns_of_of_json hschema
  obtain ⟨s, rfl⟩ := ddl_of_sent b schema .forced db hsent
  have hallowed := update_schema_vouched b hclean hnames db s reply hsent
  refine ⟨s, rfl, Ddl.text_eq_join _ s, hallowed, fun hreports name hname => ?_⟩
  exact (hallowed name hname).elim id fun hraw => hraw.clean hreports hclean

/-- A table with two declared columns that are not indexed. -/
def borrowedDocument : Json :=
  .object [("t", .object [("a", .object [("type", .text "TEXT")]),
    ("b", .object [("type", .text "TEXT")])])]

def borrowedSchema : Schema :=
  ⟨[⟨"t", [.ofType "a" "TEXT" true none .none, .ofType "b" "TEXT" true none .none]⟩]⟩

/-- The columns before the run, which are of other types. -/
def borrowedBefore : List LiveColumn :=
  [⟨.ofType "a" "INT" true none .none, none⟩, ⟨.ofType "b" "INT" true none .none, none⟩]

/-- The columns once the first of them was modified: this one has an index now, and there is a
further column. -/
def borrowedBetween (index other : String) : List LiveColumn :=
  [⟨.ofType "a" "TEXT" true none .unique, some index⟩, ⟨.ofType "b" "INT" true none .none, none⟩,
    ⟨.ofType other "INT" true none .none, none⟩]

def borrowedHandle (index other : String) : Handle Script :=
  .start (some ⟨"localhost", none, "", "", "app"⟩) []
    { fetches := [.ok [⟨[("name", some (.text "t"))]⟩]]
      describes := [.ok borrowedBefore, .ok (borrowedBetween index other)] }

/-- The events of a forced run. -/
def borrowedTrace (d : Dialect) (index other : String) : List Event :=
  (updateSchema (Script.backend d) borrowedSchema .forced).trace (borrowedHandle index other)

/-- The statement above has instances in which reported names are written and all names are
clean. -/
theorem borrowed_names_clean :
    "DROP INDEX IF EXISTS by_a" ∈ Event.executedSql .sqlite (borrowedTrace .sqlite "by_a" "note") ∧
    "INSERT INTO t__rebuild (id, created_at, updated_at, a, b, note) " ++
      "SELECT id, created_at, updated_at, a, b, note FROM t" ∈
        Event.executedSql .sqlite (borrowedTrace .sqlite "by_a" "note") ∧
    ∀ command reply,
      .called (.execute command) reply ∈ borrowedTrace .sqlite "by_a" "note" →
      ∃ s : Ddl, command = .ddl s ∧ ∀ name ∈ s.names .sqlite, Identifier.IsClean name := by
  have hreports : ReportsClean .sqlite borrowedSchema.tables
      (borrowedTrace .sqlite "by_a" "note") := by
    refine .of_described ?_
    have hdescribed : Event.described (borrowedTrace .sqlite "by_a" "note") =
        borrowedBefore ++ borrowedBetween "by_a" "note" := by
      decide +kernel
    rw [hdescribed]
    decide +kernel
  refine ⟨by decide +kernel, by decide +kernel, fun command reply hsent => ?_⟩
  obtain ⟨s, hs, -, -, hclean⟩ := update_schema_names (Script.backend .sqlite) borrowedDocument
    borrowedSchema rfl (borrowedHandle "by_a" "note") command reply hsent
  exact ⟨s, hs, hclean hreports⟩

/-- Names that are no identifiers are written as they were reported: that of the index on a declared
column in both dialects, and that of a further column in a rebuild. -/
theorem odd_names_written :
    Schema.ofJson borrowedDocument = .ok borrowedSchema ∧
    (∀ d, .called (.execute (.ddl (.dropIndex "bad name" "t"))) (.affected 0) ∈
        borrowedTrace d "bad name" "x y" ∧
      "bad name" ∈ (Ddl.dropIndex "bad name" "t").names d) ∧
    ¬ Identifier.IsClean "bad name" ∧
    "ALTER TABLE t DROP INDEX bad name" ∈
      Event.executedSql .mysql (borrowedTrace .mysql "bad name" "x y") ∧
    "INSERT INTO t__rebuild (id, created_at, updated_at, a, b, x y) " ++
      "SELECT id, created_at, updated_at, a, b, x y FROM t" ∈
        Event.executedSql .sqlite (borrowedTrace .sqlite "bad name" "x y") ∧
    ¬ Identifier.IsClean "x y" := by
  refine ⟨rfl, fun d => ⟨?_, ?_⟩, ?_, ?_, ?_, ?_⟩
  · cases d <;> decide +kernel
  · cases d <;> decide +kernel
  all_goals decide +kernel

end Session

end SchemaKeeper

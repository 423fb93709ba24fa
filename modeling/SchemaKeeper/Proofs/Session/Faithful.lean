import SchemaKeeper.Proofs.Session.Journal

/-!
# Faithful engines

A structure says which tables a database has, with the user columns of each. An engine is faithful
to a structure during a session if no call fails and every answer shows the structure with the
changes applied so far made to it. The order of columns and the names of indexes after a change are
the engine's. `Session.Yields` says what a session brings about under a faithful engine;
`Session.Yields.bind` composes it along sessions in a row.
-/

namespace SchemaKeeper

/-- The tables of a database with the user columns of each. -/
abbrev Structure := String → Option (List LiveColumn)

namespace Structure

/-- The declared sides of the columns of a table; a missing table has none. -/
def specs (s : Structure) (table : String) : List Column :=
  ((s table).getD []).map LiveColumn.spec

theorem specs_eq {s : Structure} {table : String} {columns : List LiveColumn}
    (h : s table = some columns) : s.specs table = columns.map LiveColumn.spec := by
  rw [specs, h, Option.getD_some]

/-- The structure of a database with one table. -/
def only (table : String) (columns : List LiveColumn) : Structure := fun other =>
  if other = table then some columns else none

theorem only_self (table : String) (columns : List LiveColumn) :
    only table columns table = some columns :=
  if_pos rfl

end Structure

namespace Column

/-- Change the columns of a name. -/
def onNamed (name : String) (f : Column → Column) (columns : List Column) : List Column :=
  columns.map fun c => if c.name = name then f c else c

variable {name : String} {f g : Column → Column} {columns columns' : List Column}

theorem on_named_perm (h : columns.Perm columns') :
    (onNamed name f columns).Perm (onNamed name f columns') :=
  h.map _

/-- Only what a change makes of the columns of the name matters. -/
theorem on_named_congr (h : ∀ c ∈ columns, c.name = name → f c = g c) :
    onNamed name f columns = onNamed name g columns := by
  refine List.map_congr_left fun c hc => ?_
  split
  · next hname => exact h c hc hname
  · rfl

/-- A change that leaves the columns of the name as they are leaves all columns as they are. -/
theorem on_named_same (h : ∀ c ∈ columns, c.name = name → f c = c) :
    onNamed name f columns = columns := by
  rw [on_named_congr (g := id) h, onNamed]
  simp

/-- A change that keeps the name keeps all names. -/
theorem on_named_names (h : ∀ c, c.name = name → (f c).name = name) :
    (onNamed name f columns).map Column.name = columns.map Column.name := by
  rw [onNamed, List.map_map]
  refine List.map_congr_left fun c _ => ?_
  rw [Function.comp_apply]
  split
  · next hname => rw [h c hname, hname]
  · rfl

/-- Two changes of the same name in a row are one change. -/
theorem on_named_on_named (h : ∀ c, c.name = name → (f c).name = name) :
    onNamed name g (onNamed name f columns) = onNamed name (g ∘ f) columns := by
  rw [onNamed, onNamed, onNamed, List.map_map]
  refine List.map_congr_left fun c _ => ?_
  rw [Function.comp_apply]
  by_cases hname : c.name = name
  · rw [if_pos hname, if_pos hname, if_pos (h c hname), Function.comp_apply]
  · rw [if_neg hname, if_neg hname, if_neg hname]

end Column

namespace Change

/-- What a change makes of the columns of its table. A modification leaves the index alone. -/
def edit : Change → List Column → List Column
  | .createTable _, _ => []
  | .addColumn _ column _, columns => column :: columns
  | .modifyColumn _ column _, columns =>
    Column.onNamed column.name (fun c => { column with index := c.index }) columns
  | .dropColumn _ name _, columns => columns.filter fun c => c.name ≠ name
  | .addIndex _ name kind, columns =>
    Column.onNamed name (fun c => { c with index := kind }) columns
  | .dropIndex _ name _, columns =>
    Column.onNamed name (fun c => { c with index := .none }) columns

/-- Edits do not depend on the order of columns. -/
theorem edit_perm (change : Change) {columns columns' : List Column} (h : columns.Perm columns') :
    (change.edit columns).Perm (change.edit columns') := by
  cases change with
  | createTable => exact .nil
  | addColumn _ column _ => exact h.cons column
  | dropColumn => exact h.filter _
  | modifyColumn | addIndex | dropIndex => exact Column.on_named_perm h

/-- A change turns a structure into another one, in which its table has the edited columns and all
other tables are as before. -/
structure Effect (s : Structure) (change : Change) (s' : Structure) : Prop where
  edited : ∃ columns, s' change.table = some columns ∧
    (columns.map LiveColumn.spec).Perm (change.edit (s.specs change.table))
  others : ∀ table ≠ change.table, s' table = s table

/-- Where there is but one table, a change to it makes another structure of the same table. -/
theorem effect_only {change : Change} {table : String} {columns columns' : List LiveColumn}
    (htable : change.table = table)
    (h : (columns'.map LiveColumn.spec).Perm (change.edit (columns.map LiveColumn.spec))) :
    change.Effect (.only table columns) (.only table columns') := by
  subst htable
  refine ⟨⟨columns', Structure.only_self _ _, ?_⟩, fun other hother => ?_⟩
  · rwa [Structure.specs_eq (Structure.only_self _ _)]
  · rw [Structure.only, Structure.only, if_neg hother, if_neg hother]

end Change

variable {σ α β : Type}

/-- The names of tables in the answer to the statement that lists them. -/
def listed (rows : List Row) : List String := rows.filterMap fun r => r.first?.map Scalar.display

/-- What an engine that is faithful to a structure may do next, and what the structure is then. No
failure is among it. -/
inductive Backend.Step (b : Backend σ) : Structure → Event → Structure → Prop where
  | connected (s : Structure) (config : Config) : b.Step s (.called (.connect config) .done) s
  | executed (s : Structure) (command : Command) (count : Nat) :
      b.Step s (.called (.execute command) (.affected count)) s
  | listed (s : Structure) (rows : List Row)
      (htables : ∀ table, table ∈ SchemaKeeper.listed rows ↔ (s table).isSome) :
      b.Step s (.called (.fetch b.tablesSql) (.rows rows)) s
  | described (s : Structure) (table : String) (columns : List LiveColumn)
      (hcolumns : ∀ live, s table = some live →
        columns.filter (fun c => !Identifier.isReserved c.name) = live) :
      b.Step s (.called (.describe table) (.columns columns)) s
  | attempted (s : Structure) (sql : String) : b.Step s (.attempted sql none) s
  | applied (s s' : Structure) (record : ChangeRecord) (happlied : record.outcome = .applied)
      (heffect : record.change.Effect s s') : b.Step s (.recorded record) s'
  | unapplied (s : Structure) (record : ChangeRecord) (happlied : record.outcome ≠ .applied) :
      b.Step s (.recorded record) s

/-- The events are those of an engine that is faithful to the first structure, and the changes among
them lead to the second one. -/
inductive Backend.Replays (b : Backend σ) : Structure → List Event → Structure → Prop where
  | nil (s : Structure) : b.Replays s [] s
  | cons {s mid s' : Structure} {event : Event} {rest : List Event} (hstep : b.Step s event mid)
      (hrest : b.Replays mid rest s') : b.Replays s (event :: rest) s'

namespace Backend.Replays

variable {b : Backend σ} {s s' : Structure}

theorem singleton_iff {event : Event} : b.Replays s [event] s' ↔ b.Step s event s' := by
  constructor
  · rintro (_ | ⟨hstep, _ | _⟩)
    exact hstep
  · intro hstep
    exact .cons hstep (.nil s')

/-- Events in a row are replayed part by part. -/
theorem append_iff {first second : List Event} :
    b.Replays s (first ++ second) s' ↔ ∃ mid, b.Replays s first mid ∧ b.Replays mid second s' := by
  induction first generalizing s with
  | nil =>
      constructor
      · intro h
        exact ⟨s, .nil s, h⟩
      · rintro ⟨mid, _ | _, h⟩
        exact h
  | cons event rest ih =>
      constructor
      · rintro (_ | ⟨hstep, hrest⟩)
        obtain ⟨mid, hfirst, hsecond⟩ := ih.mp hrest
        exact ⟨mid, .cons hstep hfirst, hsecond⟩
      · rintro ⟨mid, _ | ⟨hstep, hfirst⟩, hsecond⟩
        exact .cons hstep (ih.mpr ⟨mid, hfirst, hsecond⟩)

end Backend.Replays

/-- The handle knows its settings or finds them in its environment, so that it can connect. -/
def Handle.CanConnect (db : Handle σ) : Prop :=
  ∃ config, db.settings = some config ∨ Config.ofEnvironment db.environment = .ok config

namespace Session

/-- Whenever the engine is faithful to the structure, the session succeeds, and its result and the
structure it leaves are as the postcondition says. -/
def Yields (b : Backend σ) (s : Structure) (op : Session σ α) (post : α → Structure → Prop) :
    Prop :=
  ∀ db s', db.CanConnect → b.Replays s (op.trace db) s' →
    ∃ a, (op.run db).1 = .ok a ∧ (op.run db).2.CanConnect ∧ post a s'

variable {b : Backend σ} {s : Structure} {op : Session σ α} {post : α → Structure → Prop}

namespace Yields

theorem mono {post' : α → Structure → Prop} (h : Yields b s op post)
    (hpost : ∀ a s', post a s' → post' a s') : Yields b s op post' := by
  intro db s' hready hreplays
  obtain ⟨a, hrun, hready', ha⟩ := h db s' hready hreplays
  exact ⟨a, hrun, hready', hpost a s' ha⟩

protected theorem pure {a : α} (h : post a s) : Yields b s (pure a) post := by
  intro db s' hready hreplays
  rw [trace_pure] at hreplays
  cases hreplays
  exact ⟨a, rfl, hready, h⟩

/-- What the first of two sessions brings about is what the second one starts from. -/
protected theorem bind {f : α → Session σ β} [Grows op] [∀ a, Grows (f a)]
    {post' : β → Structure → Prop} (hop : Yields b s op post)
    (hf : ∀ a mid, post a mid → Yields b mid (f a) post') : Yields b s (op >>= f) post' := by
  intro db s' hready hreplays
  rcases h : (op.run db).1 with e | a
  -- A first session that fails would itself be a run of a faithful engine.
  · rw [trace_bind_error h] at hreplays
    obtain ⟨a, hrun, -⟩ := hop db s' hready hreplays
    rw [h] at hrun
    cases hrun
  · rw [trace_bind h] at hreplays
    obtain ⟨mid, hfirst, hsecond⟩ := Backend.Replays.append_iff.mp hreplays
    obtain ⟨a', hrun, hready', ha⟩ := hop db mid hready hfirst
    rw [h] at hrun
    cases hrun
    rw [run_bind_of_ok h]
    exact hf a mid ha _ s' hready' hsecond

/-- What can be built is passed on. -/
theorem built_bind {r : Except BuildError α} {f : α → Session σ β} {a : α}
    {post : β → Structure → Prop} (hr : r = .ok a) (h : Yields b s (f a) post) :
    Yields b s (Session.built r >>= f) post := by
  subst hr
  exact h

/-- A call succeeds, and its reply is one that a faithful engine gives. -/
theorem call {c : Call} {reply : α → Reply} {answer : σ → Except Failure α × σ}
    (h : ∀ a s', b.Step s (.called c (reply a)) s' → post a s') :
    Yields b s (Session.call c reply answer) post := by
  intro db s' hready hreplays
  rw [trace_call, Backend.Replays.singleton_iff] at hreplays
  -- A faithful engine takes no step with a failure.
  rcases hanswer : (answer db.engine).1 with e | a
  · rw [hanswer, Reply.ofResult] at hreplays
    cases hreplays
  · rw [hanswer, Reply.ofResult] at hreplays
    exact ⟨a, hanswer, hready, h a s' hreplays⟩

theorem resolve : Yields b s Session.resolve fun _ s' => s' = s := by
  intro db s' hready hreplays
  have hrun : ∃ config,
      Session.resolve.run db = (.ok config, { db with settings := some config }) := by
    show ∃ config, Session.resolve db = _
    unfold Session.resolve
    obtain ⟨config, hknown | hfound⟩ := hready
    · exact ⟨config, by rw [hknown]; simp [← hknown]⟩
    · cases hsettings : db.settings with
      | none => exact ⟨config, by rw [hfound]⟩
      | some known => exact ⟨known, by simp [← hsettings]⟩
  obtain ⟨config, hrun⟩ := hrun
  have htrace : Session.resolve.trace db = [] := trace_eq_nil (by rw [hrun])
  rw [htrace] at hreplays
  cases hreplays
  rw [hrun]
  exact ⟨config, rfl, ⟨config, .inl rfl⟩, rfl⟩

theorem modify_connected (connected : Bool) :
    Yields b s (modify fun db : Handle σ => { db with connected } : Session σ Unit)
      fun _ s' => s' = s := by
  intro db s' hready hreplays
  rw [trace_modify_connected] at hreplays
  cases hreplays
  exact ⟨(), rfl, hready, rfl⟩

theorem open_connection : Yields b s (openConnection b) fun _ s' => s' = s := by
  refine resolve.bind fun config mid hmid => ?_
  subst hmid
  have hcall : Yields b mid (Session.call (.connect config) (fun _ => .done) (b.connect config))
      fun _ s' => s' = mid := by
    refine call ?_
    rintro _ s' ⟨⟩
    rfl
  refine hcall.bind fun _ mid' hmid' => ?_
  subst hmid'
  exact modify_connected true

/-- A handle that can connect opens its connection, and the structure stays. -/
theorem connect : Yields b s (Session.connect b) fun _ s' => s' = s := by
  intro db s' hready hreplays
  by_cases hconnected : db.connected
  · have hrun : (Session.connect b).run db = (.ok (), db) := if_pos hconnected
    have htrace : (Session.connect b).trace db = [] := trace_eq_nil (by rw [hrun])
    rw [htrace] at hreplays
    cases hreplays
    rw [hrun]
    exact ⟨(), rfl, hready, rfl⟩
  · have hrun : (Session.connect b).run db = (openConnection b).run db := if_neg hconnected
    rw [trace, hrun] at hreplays
    rw [hrun]
    exact open_connection db s' hready hreplays

/-- Attempting a session under a statement's name changes nothing about what it brings about. -/
theorem attempt {sql : String} [Grows op] (h : Yields b s op post) :
    Yields b s (Session.attempt sql op) post := by
  intro db s' hready hreplays
  rw [trace_attempt, Backend.Replays.append_iff] at hreplays
  obtain ⟨mid, hfirst, hlast⟩ := hreplays
  obtain ⟨a, ha, hready', hpost⟩ := h (db.announce sql) mid hready hfirst
  rcases hop : op.run (db.announce sql) with ⟨r, next⟩
  rw [hop] at ha hready' hlast
  cases ha
  cases Backend.Replays.singleton_iff.mp hlast
  have hrun : (Session.attempt sql op).run db = (.ok a, next.log (.attempted sql none)) := by
    show Session.attempt sql op db = _
    unfold Session.attempt
    rw [show op (db.announce sql) = _ from hop]
  rw [hrun]
  exact ⟨a, rfl, hready', hpost⟩

theorem execute (command : Command) :
    Yields b s (Session.execute b command) fun _ s' => s' = s := by
  refine attempt (connect.bind fun _ mid hmid => ?_)
  subst hmid
  refine call ?_
  rintro count s' ⟨⟩
  rfl

/-- A faithful engine lists the tables of the structure. -/
theorem tables : Yields b s (Session.tables b) fun names s' =>
    s' = s ∧ ∀ table, table ∈ names ↔ (s table).isSome := by
  have hquery : Yields b s (query b b.tablesSql) fun rows s' =>
      s' = s ∧ ∀ table, table ∈ listed rows ↔ (s table).isSome := by
    refine attempt (connect.bind fun _ mid hmid => ?_)
    subst hmid
    refine call ?_
    intro rows s' hstep
    cases hstep with
    | listed _ htables => exact ⟨rfl, htables⟩
  exact hquery.bind fun rows s' h => Yields.pure h

/-- A faithful engine describes the user columns of a table of the structure. -/
theorem user_columns {table : String} (hclean : Identifier.sanitize table = .ok table) :
    Yields b s (userColumns b table) fun columns s' =>
      s' = s ∧ ∀ live, s table = some live → columns = live := by
  have hdescribe : Yields b s (describe b table) fun columns s' => s' = s ∧
      ∀ live, s table = some live →
        columns.filter (fun c => !Identifier.isReserved c.name) = live := by
    refine built_bind hclean (attempt (connect.bind fun _ mid hmid => ?_))
    subst hmid
    refine call ?_
    intro columns s' hstep
    cases hstep with
    | described _ _ hcolumns => exact ⟨rfl, hcolumns⟩
  exact hdescribe.bind fun columns s' h => Yields.pure h

/-- A recorded change that was applied is made to the structure, and no other is. -/
theorem note (record : ChangeRecord) : Yields b s (Session.note record) fun _ s' =>
    if record.outcome = .applied then record.change.Effect s s' else s' = s := by
  intro db s' hready hreplays
  have htrace : (Session.note record : Session σ Unit).trace db = [.recorded record] := trace_eq rfl
  rw [htrace, Backend.Replays.singleton_iff] at hreplays
  refine ⟨(), rfl, hready, ?_⟩
  cases hreplays with
  | applied _ _ happlied heffect => rwa [if_pos happlied]
  | unapplied _ happlied => rw [if_neg happlied]

end Yields

end Session

end SchemaKeeper

import SchemaKeeper.Operation
import SchemaKeeper.Proofs.Session.Conduct
import SchemaKeeper.Proofs.Synchronization.Account

/-!
# What operations are put together from

An operation that may call the engine is put together from a few steps: a connection is asked for, a
statement is announced and sent, a change is recorded, a total is set. `Session.Composed` says so of
a session and `Operation.composed` of every such operation, so that what holds of all of them is
shown of the steps and then by one induction. `Session.connecting` and `Session.stating` tell all
the ways in which asking for a connection and sending a statement can go, with the handle that each
of them leaves. Two operations make no call: a change of variables, and letting the connection go.
What these two and all the steps keep, `Operation.run_all_keeps` carries through every history of
operations.
-/

namespace SchemaKeeper

/-- The text under which a call is announced. A call that connects has none. -/
def Call.sql? {σ : Type} (b : Backend σ) : Call → Option String
  | .connect _ => none
  | .execute command => some (command.sql b.dialect)
  | .fetch sql => some sql
  | .describe table => some (b.columnsSql table)

/-- The event is a call that connects. -/
def Event.Connects : Event → Prop
  | .called (.connect _) _ => True
  | _ => False

variable {σ α β : Type}

/-- The settings that a handle connects with: those that it has or, if it has none, those that it
finds in its environment. -/
def Handle.Finds (db : Handle σ) (config : Config) : Prop :=
  db.settings = some config ∨
    db.settings = none ∧ Config.ofEnvironment db.environment = .ok config

namespace Session

/-- A call that needs a connection, under the name of a statement. -/
def statement (b : Backend σ) (sql : String) (c : Call) (reply : α → Reply)
    (answer : σ → Except Failure α × σ) : Session σ α :=
  attempt sql (connect b >>= fun _ => call c reply answer)

/-- The session is put together from the steps that a handle knows. Whether it may set the total is
up to the proposition. -/
inductive Composed (b : Backend σ) (totals : Prop) : {α : Type} → Session σ α → Prop where
  | given {α : Type} (r : Except Failure α) : Composed b totals (ofExcept r)
  | bind {α β : Type} {op : Session σ α} {f : α → Session σ β} (hop : Composed b totals op)
      (hf : ∀ a, Composed b totals (f a)) : Composed b totals (op >>= f)
  | connect : Composed b totals (connect b)
  | statement {α : Type} {sql : String} {c : Call} (hsql : c.sql? b = some sql) (reply : α → Reply)
      (hreply : ∀ a e, reply a ≠ .failed e) (answer : σ → Except Failure α × σ) :
      Composed b totals (statement b sql c reply answer)
  | note (record : ChangeRecord) : Composed b totals (note record)
  | setTotal (htotals : totals) (total : Option Nat) : Composed b totals (setTotal total)

/-- Setting the total adds nothing to the journal. -/
instance grows_set_total (total : Option Nat) : Grows (setTotal total : Session σ Unit) :=
  ⟨fun _ => List.prefix_rfl⟩

namespace Composed

variable {b : Backend σ} {totals : Prop} {op : Session σ α}

theorem pure (a : α) : Composed b totals (Pure.pure a : Session σ α) :=
  given (.ok a)

theorem built (r : Except BuildError α) : Composed b totals (Session.built r : Session σ α) :=
  given (liftBuild r)

theorem map (g : α → β) (h : Composed b totals op) : Composed b totals (g <$> op) := by
  rw [map_eq_pure_bind]
  exact h.bind fun _ => .pure _

theorem query (b : Backend σ) (sql : String) : Composed b totals (Session.query b sql) :=
  statement rfl .rows (fun _ _ => nofun) (b.fetch sql)

theorem execute (b : Backend σ) (command : Command) :
    Composed b totals (Session.execute b command) :=
  statement rfl .affected (fun _ _ => nofun) (b.execute command)

theorem describe (b : Backend σ) (table : String) :
    Composed b totals (Session.describe b table) :=
  (built _).bind fun name => statement rfl .columns (fun _ _ => nofun) (b.describe name)

theorem user_columns (b : Backend σ) (table : String) :
    Composed b totals (userColumns b table) :=
  (describe b table).bind fun _ => .pure _

theorem tables (b : Backend σ) : Composed b totals (Session.tables b) :=
  (query b _).bind fun _ => .pure _

theorem count (b : Backend σ) (table : String) (filter : Filter) :
    Composed b totals (Session.count b table filter) :=
  (built _).bind fun _ => (query b _).bind fun _ => .pure _

/-- A selection sets the total in the end. -/
theorem select (htotals : totals) (b : Backend σ) (q : Query) :
    Composed b totals (Session.select b q) := by
  have hend : ∀ (total : Option Nat) (rows : List Row),
      Composed b totals (Session.setTotal total >>= fun _ => Pure.pure rows) :=
    fun total rows => (setTotal htotals total).bind fun _ => .pure rows
  refine (built _).bind fun sql => ?_
  cases q.limit with
  | none => exact (query b sql).bind fun rows => hend _ rows
  | some _ =>
      exact (built _).bind fun _ => (query b _).bind fun counted => (query b sql).bind fun rows =>
        hend _ rows

theorem first (htotals : totals) (b : Backend σ) (q : Query) :
    Composed b totals (Session.first b q) :=
  (select htotals b q.single).bind fun _ => .pure _

/-- Sessions only ever add to the journal. -/
theorem grows (h : Composed b totals op) : Grows op := by
  induction h with
  | given r => exact grows_of_except r
  | bind _ _ ihop ihf => exact grows_bind _ _
  | connect => exact grows_connect b
  | statement _ _ _ _ => exact grows_attempt _ _
  | note record => exact grows_note record
  | setTotal _ total => exact grows_set_total total

end Composed

/-- Two sessions in a row: either the first one fails, and this is all, or the second one runs on
what it leaves. -/
theorem run_bind_cases (op : Session σ α) (f : α → Session σ β) (db : Handle σ) :
    (∃ e, (op.run db).1 = .error e ∧ (op >>= f).run db = (.error e, (op.run db).2)) ∨
      ∃ a, (op.run db).1 = .ok a ∧ (op >>= f).run db = (f a).run (op.run db).2 := by
  rw [run_bind]
  rcases op.run db with ⟨e | a, mid⟩
  · exact .inl ⟨e, rfl, rfl⟩
  · exact .inr ⟨a, rfl, rfl⟩

/-- How asking for a connection goes, with its result and the handle that it leaves. -/
inductive Connecting (b : Backend σ) (db : Handle σ) : Except Failure Unit → Handle σ → Prop where
  | held (hopen : db.connected = true) : Connecting b db (.ok ()) db
  | unresolved (fault : ConfigFault) (hclosed : db.connected = false)
      (hsettings : db.settings = none)
      (hfault : Config.ofEnvironment db.environment = .error fault) :
      Connecting b db (.error (.ofConfig fault)) db
  | refused (config : Config) (e : Failure) (engine : σ) (hclosed : db.connected = false)
      (hconfig : db.Finds config) :
      Connecting b db (.error e)
        ({ db with settings := some config, engine }.log (.called (.connect config) (.failed e)))
  | opened (config : Config) (engine : σ) (hclosed : db.connected = false)
      (hconfig : db.Finds config) :
      Connecting b db (.ok ())
        ({ db with settings := some config, engine, connected := true }.log
          (.called (.connect config) .done))

/-- A connection that was asked for is held if this succeeds. -/
theorem Connecting.connected {b : Backend σ} {db next : Handle σ}
    (h : Connecting b db (.ok ()) next) : next.connected = true := by
  cases h with
  | held hopen => exact hopen
  | opened => rfl

/-- Settings that are found are the handle's from then on. -/
theorem resolve_of_finds {db : Handle σ} {config : Config} (h : db.Finds config) :
    resolve.run db = (.ok config, { db with settings := some config }) := by
  show Session.resolve db = _
  unfold Session.resolve
  rcases h with hsettings | ⟨hsettings, hfound⟩
  · rw [hsettings]
    cases db
    cases hsettings
    rfl
  · rw [hsettings, hfound]

/-- A call gives the answer of the engine and leaves its reply in the journal. -/
theorem run_call (c : Call) (reply : α → Reply) (answer : σ → Except Failure α × σ)
    (db : Handle σ) : (call c reply answer).run db = ((answer db.engine).1,
      { db with engine := (answer db.engine).2 }.log
        (.called c (Reply.ofResult reply (answer db.engine).1))) := rfl

/-- Opening a connection with settings that are found comes to one call. -/
theorem run_open_of_finds {b : Backend σ} {db : Handle σ} {config : Config}
    (h : db.Finds config) : (openConnection b).run db =
      match b.connect config db.engine with
      | (.error e, engine) => (.error e, { db with settings := some config, engine }.log
          (.called (.connect config) (.failed e)))
      | (.ok (), engine) => (.ok (), { db with settings := some config, engine, connected := true
          }.log (.called (.connect config) .done)) := by
  rw [openConnection, run_bind, resolve_of_finds h]
  dsimp only
  rw [run_bind, run_call]
  rcases b.connect config db.engine with ⟨e | ⟨⟩, engine⟩ <;> rfl

theorem connecting (b : Backend σ) (db : Handle σ) :
    Connecting b db ((connect b).run db).1 ((connect b).run db).2 := by
  cases hconnected : db.connected with
  | true =>
      have hrun : (connect b).run db = (.ok (), db) := if_pos hconnected
      rw [hrun]
      exact .held hconnected
  | false =>
      have hrun : (connect b).run db = (openConnection b).run db := if_neg (by simp [hconnected])
      have hfinds : ∀ config, db.Finds config →
          Connecting b db ((connect b).run db).1 ((connect b).run db).2 := by
        intro config hconfig
        rw [hrun, run_open_of_finds hconfig]
        rcases b.connect config db.engine with ⟨e | ⟨⟩, engine⟩
        · exact .refused config e engine hconnected hconfig
        · exact .opened config engine hconnected hconfig
      cases hsettings : db.settings with
      | some config => exact hfinds config (.inl hsettings)
      | none =>
          cases hfound : Config.ofEnvironment db.environment with
          | ok config => exact hfinds config (.inr ⟨hsettings, hfound⟩)
          | error fault =>
              have hresolve : resolve.run db = (.error (.ofConfig fault), db) := by
                show Session.resolve db = _
                unfold Session.resolve
                rw [hsettings, hfound]
              rw [hrun, openConnection, run_bind, hresolve]
              exact .unresolved fault hconnected hsettings hfound

/-- How a call under the name of a statement goes, with its result and the handle that it leaves:
there is no connection to send it over, the engine fails it, or the engine replies. -/
inductive Stating (b : Backend σ) (sql : String) (c : Call) (reply : α → Reply) (db : Handle σ) :
    Except Failure α → Handle σ → Prop where
  | unsent (e : Failure) (mid : Handle σ)
      (hconnect : Connecting b (db.announce sql) (.error e) mid) :
      Stating b sql c reply db (.error e) ((mid.settle e).log (.attempted sql (some e)))
  | failed (e : Failure) (mid : Handle σ) (engine : σ)
      (hconnect : Connecting b (db.announce sql) (.ok ()) mid) :
      Stating b sql c reply db (.error e)
        ((({ mid with engine }.log (.called c (.failed e))).settle e).log
          (.attempted sql (some e)))
  | replied (a : α) (mid : Handle σ) (engine : σ)
      (hconnect : Connecting b (db.announce sql) (.ok ()) mid) :
      Stating b sql c reply db (.ok a)
        (({ mid with engine }.log (.called c (reply a))).log (.attempted sql none))

/-- An attempt does what it attempts and remembers how this ended. -/
theorem run_attempt (sql : String) (op : Session σ α) (db : Handle σ) :
    (attempt sql op).run db =
      match op.run (db.announce sql) with
      | (.ok a, next) => (.ok a, next.log (.attempted sql none))
      | (.error e, next) => (.error e, (next.settle e).log (.attempted sql (some e))) := rfl

theorem stating (b : Backend σ) (sql : String) (c : Call) (reply : α → Reply)
    (answer : σ → Except Failure α × σ) (db : Handle σ) :
    Stating b sql c reply db ((statement b sql c reply answer).run db).1
      ((statement b sql c reply answer).run db).2 := by
  have hconnecting := connecting b (db.announce sql)
  rw [statement, run_attempt, run_bind]
  rcases hconnect : (connect b).run (db.announce sql) with ⟨e | ⟨⟩, mid⟩
  all_goals rw [hconnect] at hconnecting
  · exact .unsent e mid hconnecting
  · dsimp only
    rw [run_call]
    rcases answer mid.engine with ⟨e | a, engine⟩
    · exact .failed e mid engine hconnecting
    · exact .replied a mid engine hconnecting

/-- Each of the steps that sessions are put together from keeps the property of handles. -/
structure Keeps (b : Backend σ) (totals : Prop) (inv : Handle σ → Prop) : Prop where
  connect : ∀ {db result next}, Connecting b db result next → inv db → inv next
  statement : ∀ {α : Type} {sql : String} {c : Call} {reply : α → Reply} {db result next},
    c.sql? b = some sql → (∀ a e, reply a ≠ .failed e) → Stating b sql c reply db result next →
      inv db → inv next
  note : ∀ {db} (record : ChangeRecord), inv db → inv (db.log (.recorded record))
  setTotal : totals → ∀ {db} (total : Option Nat), inv db → inv { db with lastTotal := total }

theorem Keeps.mono {b : Backend σ} {totals totals' : Prop} {inv : Handle σ → Prop}
    (h : Keeps b totals inv) (htotals : totals' → totals) : Keeps b totals' inv :=
  { h with setTotal := fun h' => h.setTotal (htotals h') }

/-- What the steps keep, a session that is put together from them keeps. -/
theorem Composed.keeps {b : Backend σ} {totals : Prop} {op : Session σ α} {inv : Handle σ → Prop}
    (h : Composed b totals op) (hinv : Keeps b totals inv) {db : Handle σ} (hdb : inv db) :
    inv (op.run db).2 := by
  induction h generalizing db with
  | given r => exact hdb
  | @bind _ _ op f _ _ ihop ihf =>
      rcases run_bind_cases op f db with ⟨e, -, hrun⟩ | ⟨a, -, hrun⟩
      all_goals rw [hrun]
      · exact ihop hdb
      · exact ihf a (ihop hdb)
  | connect => exact hinv.connect (connecting b db) hdb
  | statement hsql reply hreply answer =>
      exact hinv.statement hsql hreply (stating b _ _ reply answer db) hdb
  | note record => exact hinv.note record hdb
  | setTotal htotals total => exact hinv.setTotal htotals total hdb

/-- What all the steps keep, a session keeps whatever it is put together from. -/
theorem Composed.keeps_all {b : Backend σ} {totals : Prop} {op : Session σ α}
    {inv : Handle σ → Prop} (h : Composed b totals op) (hinv : Keeps b True inv) {db : Handle σ}
    (hdb : inv db) : inv (op.run db).2 :=
  h.keeps (hinv.mono fun _ => trivial) hdb

/-- A session that is followed by a function alone leaves what it leaves. -/
theorem run_map (g : α → β) (op : Session σ α) (db : Handle σ) :
    (g <$> op).run db = ((op.run db).1.map g, (op.run db).2) := by
  rw [map_eq_pure_bind, run_bind]
  rcases op.run db with ⟨e | a, next⟩ <;> rfl

end Session

namespace Synchronization

open Session

variable {b : Backend σ} {options : SyncOptions} {totals : Prop} {table : String}
  {declared : Column}

theorem execute_all_composed (statements : List Ddl) :
    Composed b totals (executeAll b statements) := by
  induction statements with
  | nil => exact .pure ()
  | cons s rest ih => exact (Composed.execute b (.ddl s)).bind fun _ => ih

theorem apply_composed (change : Change) : Composed b totals (apply b options change) :=
  (execute_all_composed _).bind fun _ => (Composed.note _).bind fun _ => .pure _

theorem skip_composed (reason : SkipReason) (change : Change) :
    Composed b totals (skip b reason change) :=
  (Composed.note _).bind fun _ => .pure _

theorem drop_all_composed (doomed live : List LiveColumn) :
    Composed b totals (dropAll b options table doomed live) := by
  induction doomed generalizing live with
  | nil => exact .pure _
  | cons column rest ih =>
      rw [drop_all_cons]
      exact (Composed.built _).bind fun change => (apply_composed change).bind fun _ =>
        (ih _).bind fun _ => .pure _

theorem redefine_composed (current : LiveColumn) (live : List LiveColumn) :
    Composed b totals (redefine b options table declared current live) := by
  unfold redefine
  split
  · refine (apply_composed _).bind fun record => ?_
    split
    · exact .pure _
    · split
      · exact .pure _
      · exact (Composed.user_columns b table).bind fun _ => .pure _
  · exact .pure _

theorem add_index_composed (kept : Bool) (live : List LiveColumn) :
    Composed b totals (addIndex b options table declared kept live) := by
  unfold addIndex
  split
  · exact .pure _
  · split
    · exact (skip_composed _ _).bind fun _ => .pure _
    · exact (apply_composed _).bind fun _ => .pure _

theorem sync_index_composed (live : List LiveColumn) :
    Composed b totals (syncIndex b options table declared live) := by
  cases hfind : live.find? fun c => c.name = declared.name with
  | none =>
      unfold syncIndex
      rw [hfind]
      exact .pure _
  | some current =>
      rw [sync_index_some hfind]
      split
      · exact .pure _
      · split
        · exact (apply_composed _).bind fun _ => (add_index_composed _ _).bind fun _ => .pure _
        · exact add_index_composed false live

theorem sync_column_composed (after : String) (live : List LiveColumn) :
    Composed b totals (syncColumn b options table after declared live) := by
  cases hfind : live.find? fun c => c.name = declared.name with
  | none =>
      rw [sync_column_none hfind]
      exact (apply_composed _).bind fun _ => .pure _
  | some current =>
      rw [sync_column_some hfind]
      exact (redefine_composed current live).bind fun _ =>
        (sync_index_composed _).bind fun _ => .pure _

theorem sync_columns_composed (after : String) (columns : List Column) (live : List LiveColumn) :
    Composed b totals (syncColumns b options table after columns live) := by
  induction columns generalizing after live with
  | nil => exact .pure _
  | cons declared rest ih =>
      rw [sync_columns_cons]
      split
      · exact ih after live
      · exact (sync_column_composed after live).bind fun _ => (ih _ _).bind fun _ => .pure _

theorem sync_table_composed (table : Table) (present : Bool) :
    Composed b totals (syncTable b options table present) := by
  have hensure : Composed b totals (ensureTable b options table.name present) := by
    unfold ensureTable
    split
    · exact .pure _
    · exact (apply_composed _).bind fun _ => .pure _
  have hlive : Composed b totals (liveColumns b options table.name present) := by
    unfold liveColumns
    split
    · exact .pure _
    · exact .user_columns b table.name
  rw [sync_table_eq]
  exact hensure.bind fun _ => hlive.bind fun live => (drop_all_composed _ live).bind fun _ =>
    (sync_columns_composed "id" table.columns _).bind fun _ => .pure _

theorem sync_tables_composed (tables : List Table) (existing : List String) :
    Composed b totals (syncTables b options tables existing) := by
  induction tables generalizing existing with
  | nil => exact .pure _
  | cons table rest ih =>
      rw [sync_tables_cons]
      exact (sync_table_composed table _).bind fun _ => (ih _).bind fun _ => .pure _

end Synchronization

namespace Operation

open Session Synchronization

/-- The query whose rows an operation selects, if it does. -/
def selection? : Operation → Option Query
  | .select q => some q
  | .first q => some q.single
  | .get table columns filter => some (Query.single { table, columns, filter })
  | _ => none

/-- The operation may call the engine: it neither changes variables nor lets go of the
connection. -/
def MayCall : Operation → Prop
  | .setVariables _ | .disconnect => False
  | _ => True

/-- Two operations make no call. -/
theorem may_call_or (op : Operation) :
    op.MayCall ∨ (∃ changes, op = .setVariables changes) ∨ op = .disconnect := by
  cases op with
  | setVariables changes => exact .inr (.inl ⟨changes, rfl⟩)
  | disconnect => exact .inr (.inr rfl)
  | _ => exact .inl trivial

/-- An operation that may call the engine is put together from the steps that a handle knows, and
only a selection sets the total. -/
theorem composed (b : Backend σ) (op : Operation) (h : op.MayCall) :
    Composed b (op.selection?.isSome = true) (op.run b) := by
  cases op with
  | setVariables | disconnect => exact h.elim
  | connect => exact Composed.connect.map _
  | query sql => exact (Composed.query b sql).map _
  | execute command => exact (Composed.execute b command).map _
  | select q => exact (Composed.select rfl b q).map _
  | first q => exact (Composed.first rfl b q).map _
  | get table columns filter => exact (Composed.first rfl b _).map _
  | count table filter => exact (Composed.count b table filter).map _
  | sum table column filter =>
      exact ((Composed.built _).bind fun _ => (Composed.query b _).bind fun _ => .pure _).map _
  | has table filter => exact ((Composed.count b table filter).bind fun _ => .pure _).map _
  | insert table values fresh =>
      exact ((Composed.built _).bind fun _ => (Composed.execute b _).bind fun _ => .pure _).map _
  | update table values filter | delete table filter =>
      exact ((Composed.built _).bind fun _ => Composed.execute b _).map _
  | truncate table =>
      exact ((Composed.built _).bind fun _ => (Composed.execute b _).bind fun _ => .pure _).map _
  | tables => exact (Composed.tables b).map _
  | tableExists table =>
      exact ((Composed.built _).bind fun _ => (Composed.tables b).bind fun _ => .pure _).map _
  | describe table => exact (Composed.describe b table).map _
  | userColumns table => exact (Composed.user_columns b table).map _
  | updateSchema schema options =>
      exact ((Composed.tables b).bind fun _ => sync_tables_composed schema.tables _).map _

theorem run_set_all (changes : List (String × Option String)) (db : Handle σ) :
    ∃ environment, (setAll changes).run db = (.ok (), { db with environment }) := by
  induction changes generalizing db with
  | nil => exact ⟨db.environment, rfl⟩
  | cons change rest ih => exact ih _

/-- Changes of variables change the environment of a handle and nothing else about it. -/
theorem run_set_variables (b : Backend σ) (changes : List (String × Option String))
    (db : Handle σ) : ∃ environment,
      ((Operation.setVariables changes).run b).run db = (.ok .done, { db with environment }) := by
  obtain ⟨environment, hrun⟩ := run_set_all changes db
  refine ⟨environment, ?_⟩
  rw [Operation.run, run_map, hrun]
  rfl

/-- Letting go of a connection leaves the rest of a handle as it is. -/
theorem run_disconnect (b : Backend σ) (db : Handle σ) :
    (Operation.disconnect.run b).run db =
      (.ok .done, { db with connected := false }.log .released) := by
  rw [Operation.run, run_map]
  rfl

/-- What the steps keep, changes of the environment do and letting go of the connection does, every
operation keeps. -/
theorem run_keeps {b : Backend σ} {inv : Handle σ → Prop} (op : Operation)
    (hinv : Keeps b (op.selection?.isSome = true) inv)
    (henvironment : ∀ db environment, inv db → inv { db with environment })
    (hreleased : ∀ db, inv db → inv ({ db with connected := false }.log .released)) {db : Handle σ}
    (hdb : inv db) : inv ((op.run b).run db).2 := by
  rcases op.may_call_or with hcall | ⟨changes, rfl⟩ | rfl
  · exact (op.composed b hcall).keeps hinv hdb
  · obtain ⟨environment, hrun⟩ := run_set_variables b changes db
    rw [hrun]
    exact henvironment db environment hdb
  · rw [run_disconnect]
    exact hreleased db hdb

end Operation

end SchemaKeeper

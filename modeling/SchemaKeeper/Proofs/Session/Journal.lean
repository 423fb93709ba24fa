import SchemaKeeper.Synchronization

/-!
# The journal of a session

Sessions are read through the events that they add to the journal of a handle. `Session.trace` gives
these events, `Session.Grows` says that nothing that was in the journal before is lost, and
`Session.trace_bind` puts the events of two sessions one after the other. `Session.Accounts` follows
the records of changes through a session: what it returns is what it recorded, and what it executed
is what the records say was executed.
-/

namespace SchemaKeeper

namespace Event

/-- The records of changes among some events. -/
def records (events : List Event) : List ChangeRecord :=
  events.filterMap fun
    | .recorded r => some r
    | _ => none

/-- The commands that some events sent to be executed. -/
def commands (events : List Event) : List Command :=
  events.filterMap fun
    | .called (.execute c) _ => some c
    | _ => none

@[simp] theorem records_nil : records [] = [] := rfl

@[simp] theorem commands_nil : commands [] = [] := rfl

@[simp] theorem records_append (first second : List Event) :
    records (first ++ second) = records first ++ records second :=
  List.filterMap_append

@[simp] theorem commands_append (first second : List Event) :
    commands (first ++ second) = commands first ++ commands second :=
  List.filterMap_append

end Event

namespace Session

variable {σ α β : Type}

/-- A session after another one runs only if the first one succeeds. -/
theorem run_bind (op : Session σ α) (f : α → Session σ β) (db : Handle σ) :
    Session.run (op >>= f) db =
      match op.run db with
      | (.ok a, db) => (f a).run db
      | (.error e, db) => (.error e, db) := by
  show (ExceptT.bind op f) db = _
  unfold ExceptT.bind ExceptT.mk ExceptT.bindCont
  show (StateT.bind op _) db = _
  unfold StateT.bind Session.run
  generalize op db = r
  rcases r with ⟨a | e, s⟩ <;> rfl

/-- Two sessions in a row that succeed do so one after the other. -/
theorem run_bind_ok {op : Session σ α} {f : α → Session σ β} {db : Handle σ} {result : β}
    (h : ((op >>= f).run db).1 = .ok result) :
    ∃ a, (op.run db).1 = .ok a ∧ ((f a).run (op.run db).2).1 = .ok result := by
  rw [run_bind] at h
  rcases hrun : op.run db with ⟨e | a, next⟩
  · rw [hrun] at h
    cases h
  · rw [hrun] at h
    exact ⟨a, rfl, h⟩

/-- After a first session that succeeds the second one runs on what it leaves. -/
theorem run_bind_of_ok {op : Session σ α} {f : α → Session σ β} {db : Handle σ} {a : α}
    (h : (op.run db).1 = .ok a) : (op >>= f).run db = (f a).run (op.run db).2 := by
  rw [run_bind]
  rcases hrun : op.run db with ⟨r, next⟩
  rw [hrun] at h
  cases h
  rfl

/-- The events that a session adds to the journal of a handle. -/
def trace (op : Session σ α) (db : Handle σ) : List Event :=
  (op.run db).2.journal.drop db.journal.length

/-- A session only ever adds to the journal. -/
class Grows (op : Session σ α) : Prop where
  adds : ∀ db, db.journal <+: (op.run db).2.journal

/-- What stands in the journal before a session still stands there afterwards. -/
theorem journal_kept (op : Session σ α) [h : Grows op] (db : Handle σ) :
    db.journal <+: (op.run db).2.journal :=
  h.adds db

/-- The journal after a session is the journal before it and the events of the session. -/
theorem journal_run (op : Session σ α) [Grows op] (db : Handle σ) :
    (op.run db).2.journal = db.journal ++ op.trace db := by
  obtain ⟨events, h⟩ := journal_kept op db
  rw [trace, ← h, List.drop_left]

/-- The events of a session are what stands in the journal behind the events before it. -/
theorem trace_eq {op : Session σ α} {db : Handle σ} {events : List Event}
    (h : (op.run db).2.journal = db.journal ++ events) : op.trace db = events := by
  rw [trace, h, List.drop_left]

/-- A session that leaves the journal as it is has no events. -/
theorem trace_eq_nil {op : Session σ α} {db : Handle σ}
    (h : (op.run db).2.journal = db.journal) : op.trace db = [] :=
  trace_eq (by rw [h, List.append_nil])

/-- A session that only gives a value has no events. -/
@[simp] theorem trace_pure (a : α) (db : Handle σ) : (pure a : Session σ α).trace db = [] :=
  trace_eq_nil rfl

theorem trace_modify_connected (connected : Bool) (db : Handle σ) :
    (modify fun db : Handle σ => { db with connected } : Session σ Unit).trace db = [] :=
  trace_eq_nil rfl

/-- The one event of a call is its reply. -/
theorem trace_call (c : Call) (reply : α → Reply) (answer : σ → Except Failure α × σ)
    (db : Handle σ) : (Session.call c reply answer).trace db
      = [.called c (Reply.ofResult reply (answer db.engine).1)] :=
  trace_eq rfl

instance grows_pure (a : α) : Grows (pure a : Session σ α) :=
  ⟨fun _ => List.prefix_rfl⟩

instance grows_bind (op : Session σ α) (f : α → Session σ β) [Grows op] [∀ a, Grows (f a)] :
    Grows (op >>= f) := by
  constructor
  intro db
  have hop := journal_kept op db
  rw [run_bind]
  rcases h : op.run db with ⟨a | e, next⟩
  · rw [h] at hop
    exact hop
  · rw [h] at hop
    exact hop.trans (journal_kept (f e) next)

instance grows_ite (c : Prop) [Decidable c] (yes no : Session σ α) [Grows yes] [Grows no] :
    Grows (if c then yes else no) := by
  split <;> infer_instance

/-- The events of two sessions in a row when the first one succeeds. -/
theorem trace_bind {op : Session σ α} {f : α → Session σ β} [Grows op] [∀ a, Grows (f a)]
    {db : Handle σ} {a : α} (h : (op.run db).1 = .ok a) :
    (op >>= f).trace db = op.trace db ++ (f a).trace (op.run db).2 := by
  apply trace_eq
  have hop := journal_run op db
  have hf := journal_run (f a) (op.run db).2
  rw [run_bind]
  rcases hrun : op.run db with ⟨r, next⟩
  rw [hrun] at h hop hf
  cases h
  rw [hf, hop, List.append_assoc]

/-- The events of two sessions in a row when the first one fails. -/
theorem trace_bind_error {op : Session σ α} {f : α → Session σ β} {db : Handle σ} {e : Failure}
    (h : (op.run db).1 = .error e) : (op >>= f).trace db = op.trace db := by
  unfold trace
  rw [run_bind]
  rcases hrun : op.run db with ⟨r, next⟩
  rw [hrun] at h
  cases h
  rfl

instance grows_of_except (r : Except Failure α) : Grows (ofExcept r : Session σ α) :=
  ⟨fun _ => List.prefix_rfl⟩

instance grows_built (r : Except BuildError α) : Grows (built r : Session σ α) :=
  grows_of_except _

instance grows_resolve : Grows (resolve : Session σ Config) := by
  constructor
  intro db
  show db.journal <+: (Session.resolve db).2.journal
  unfold Session.resolve
  split
  · exact List.prefix_rfl
  · split <;> exact List.prefix_rfl

instance grows_call (c : Call) (reply : α → Reply) (answer : σ → Except Failure α × σ) :
    Grows (call c reply answer) :=
  ⟨fun db => List.prefix_append db.journal _⟩

instance grows_note (record : ChangeRecord) : Grows (note record : Session σ Unit) :=
  ⟨fun db => List.prefix_append db.journal _⟩

instance grows_modify_connected (connected : Bool) :
    Grows (modify fun db : Handle σ => { db with connected } : Session σ Unit) :=
  ⟨fun _ => List.prefix_rfl⟩

instance grows_open_connection (b : Backend σ) : Grows (openConnection b) :=
  inferInstanceAs (Grows (resolve >>= fun config =>
    call (.connect config) (fun _ => .done) (b.connect config) >>= fun _ => modify _))

instance grows_connect (b : Backend σ) : Grows (connect b) := by
  constructor
  intro db
  show db.journal <+: (Session.connect b db).2.journal
  unfold Session.connect
  split
  · exact List.prefix_rfl
  · exact journal_kept (openConnection b) db

instance grows_attempt (sql : String) (op : Session σ α) [Grows op] : Grows (attempt sql op) := by
  constructor
  intro db
  have hop := journal_kept op (db.announce sql)
  show db.journal <+: (Session.attempt sql op db).2.journal
  unfold Session.attempt
  rcases h : op (db.announce sql) with ⟨a | e, next⟩
  all_goals
    rw [Session.run, h] at hop
    exact hop.trans (List.prefix_append _ _)

/-- An attempt adds its outcome to the events of the session that it attempts. -/
theorem trace_attempt (sql : String) (op : Session σ α) [Grows op] (db : Handle σ) :
    (attempt sql op).trace db = op.trace (db.announce sql) ++
      [.attempted sql (match (op.run (db.announce sql)).1 with
        | .ok _ => none
        | .error e => some e)] := by
  apply trace_eq
  have hop := journal_run op (db.announce sql)
  show (Session.attempt sql op db).2.journal = _
  unfold Session.attempt
  rcases h : op (db.announce sql) with ⟨a | e, next⟩
  all_goals
    rw [Session.run, h] at hop
    rw [Session.run, h, ← List.append_assoc]
    exact congrArg (· ++ _) hop

instance grows_query (b : Backend σ) (sql : String) : Grows (query b sql) :=
  inferInstanceAs (Grows (attempt sql _))

instance grows_execute (b : Backend σ) (command : Command) : Grows (execute b command) :=
  inferInstanceAs (Grows (attempt _ _))

instance grows_describe (b : Backend σ) (table : String) : Grows (describe b table) :=
  inferInstanceAs (Grows (built _ >>= fun table => attempt (b.columnsSql table) _))

instance grows_user_columns (b : Backend σ) (table : String) : Grows (userColumns b table) :=
  inferInstanceAs (Grows (describe b table >>= fun _ => pure _))

instance grows_tables (b : Backend σ) : Grows (tables b) :=
  inferInstanceAs (Grows (query b b.tablesSql >>= fun _ => pure _))

/-- The session adds its records to those before it, so that together they are what `records` says
of its result, and it executes just the statements of its records that were carried out. -/
def Accounts (before : List ChangeRecord) (op : Session σ α) (records : α → List ChangeRecord) :
    Prop :=
  ∀ db a, (op.run db).1 = .ok a →
    before ++ Event.records (op.trace db) = records a ∧
      Event.commands (op.trace db) =
        (Event.records (op.trace db)).flatMap fun r => r.executed.map .ddl

/-- The session neither records a change nor executes anything. -/
def Quiet (op : Session σ α) : Prop :=
  ∀ db, Event.records (op.trace db) = [] ∧ Event.commands (op.trace db) = []

theorem Quiet.accounts {op : Session σ α} (h : op.Quiet) (before : List ChangeRecord) :
    op.Accounts before fun _ => before := by
  intro db a _
  simp [h db]

theorem Accounts.pure {before : List ChangeRecord} {records : α → List ChangeRecord} {a : α}
    (h : before = records a) : (pure a : Session σ α).Accounts before records := by
  intro db result hrun
  cases hrun
  simp [h]

/-- A second session goes on where the account of the first one ends. -/
theorem Accounts.bind {before : List ChangeRecord} {op : Session σ α} {f : α → Session σ β}
    [Grows op] [∀ a, Grows (f a)] {middle : α → List ChangeRecord} {records : β → List ChangeRecord}
    (hop : op.Accounts before middle) (hf : ∀ a, (f a).Accounts (middle a) records) :
    (op >>= f).Accounts before records := by
  intro db result hrun
  obtain ⟨a, hfirst, hsecond⟩ := run_bind_ok hrun
  obtain ⟨hrecords, hcommands⟩ := hop db a hfirst
  obtain ⟨hrecords', hcommands'⟩ := hf a _ result hsecond
  rw [trace_bind hfirst]
  constructor
  · rw [Event.records_append, ← List.append_assoc, hrecords, hrecords']
  · rw [Event.commands_append, Event.records_append, List.flatMap_append, hcommands, hcommands']

theorem Quiet.bind {op : Session σ α} {f : α → Session σ β} [Grows op] [∀ a, Grows (f a)]
    (hop : op.Quiet) (hf : ∀ a, (f a).Quiet) : (op >>= f).Quiet := by
  intro db
  rcases h : (op.run db).1 with e | a
  · rw [trace_bind_error h]
    exact hop db
  · simpa [trace_bind h, hop db] using hf a (op.run db).2

namespace Quiet

theorem pure (a : α) : (Pure.pure a : Session σ α).Quiet := by
  intro db
  simp

theorem of_except (r : Except Failure α) : (ofExcept r : Session σ α).Quiet := by
  intro db
  have htrace : (ofExcept r : Session σ α).trace db = [] := trace_eq_nil rfl
  simp [htrace]

theorem built (r : Except BuildError α) : (Session.built r : Session σ α).Quiet :=
  of_except _

theorem resolve : (Session.resolve : Session σ Config).Quiet := by
  intro db
  have htrace : Session.resolve.trace db = [] := by
    apply trace_eq_nil
    show (Session.resolve db).2.journal = _
    unfold Session.resolve
    split
    · rfl
    · split <;> rfl
  simp [htrace]

/-- A call that executes nothing is quiet. -/
theorem call {c : Call} (hc : ∀ command, c ≠ .execute command) (reply : α → Reply)
    (answer : σ → Except Failure α × σ) : (Session.call c reply answer).Quiet := by
  intro db
  rw [trace_call]
  cases c with
  | execute command => exact absurd rfl (hc command)
  | connect | fetch | describe => exact ⟨rfl, rfl⟩

theorem modify_connected (connected : Bool) :
    (modify fun db : Handle σ => { db with connected } : Session σ Unit).Quiet := by
  intro db
  simp [trace_modify_connected]

theorem open_connection (b : Backend σ) : (openConnection b).Quiet :=
  resolve.bind fun _ => (call (by rintro _ ⟨⟩) _ _).bind fun _ => modify_connected true

theorem connect (b : Backend σ) : (Session.connect b).Quiet := by
  intro db
  by_cases hconnected : db.connected
  · have hrun : (Session.connect b).run db = (.ok (), db) := if_pos hconnected
    have htrace : (Session.connect b).trace db = [] := trace_eq_nil (by rw [hrun])
    simp [htrace]
  · have hrun : (Session.connect b).run db = (openConnection b).run db := if_neg hconnected
    rw [trace, hrun]
    exact open_connection b db

theorem attempt (sql : String) {op : Session σ α} [Grows op] (h : op.Quiet) :
    (Session.attempt sql op).Quiet := by
  intro db
  obtain ⟨hrecords, hcommands⟩ := h (db.announce sql)
  rw [trace_attempt, Event.records_append, Event.commands_append, hrecords, hcommands]
  exact ⟨rfl, rfl⟩

theorem query (b : Backend σ) (sql : String) : (Session.query b sql).Quiet :=
  attempt sql ((connect b).bind fun _ => call (by rintro _ ⟨⟩) _ _)

theorem tables (b : Backend σ) : (Session.tables b).Quiet :=
  (query b b.tablesSql).bind fun _ => pure _

theorem user_columns (b : Backend σ) (table : String) : (userColumns b table).Quiet :=
  ((built _).bind fun _ => attempt _ ((connect b).bind fun _ => call (by rintro _ ⟨⟩) _ _)).bind
    fun _ => pure _

end Quiet

/-- The result of an attempt is the result of the session that it attempts. -/
theorem result_attempt (sql : String) (op : Session σ α) (db : Handle σ) :
    ((attempt sql op).run db).1 = (op.run (db.announce sql)).1 := by
  show (Session.attempt sql op db).1 = _
  unfold Session.attempt
  rcases h : op (db.announce sql) with ⟨a | e, next⟩
  all_goals rw [Session.run, h]

/-- Executing a command records nothing and sends this one command, if it succeeds. -/
theorem execute_events {b : Backend σ} {command : Command} {db : Handle σ} {count : Nat}
    (h : ((execute b command).run db).1 = .ok count) :
    Event.records ((execute b command).trace db) = [] ∧
      Event.commands ((execute b command).trace db) = [command] := by
  rw [execute, result_attempt] at h
  rw [execute, trace_attempt]
  generalize db.announce (command.sql b.dialect) = start at h ⊢
  obtain ⟨⟨⟩, hconnect, -⟩ := run_bind_ok h
  have hcall : (call (.execute command) Reply.affected (b.execute command)).trace
      ((connect b).run start).2 = [.called (.execute command)
        (Reply.ofResult .affected (b.execute command ((connect b).run start).2.engine).1)] :=
    trace_eq rfl
  obtain ⟨hrecords, hcommands⟩ := Quiet.connect b start
  rw [trace_bind hconnect, hcall, Event.records_append, Event.records_append,
    Event.commands_append, Event.commands_append, hrecords, hcommands]
  exact ⟨rfl, rfl⟩

end Session

end SchemaKeeper

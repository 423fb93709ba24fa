import SchemaKeeper.Proofs.Session.Journal

/-!
# Sessions under any answers

What holds of a session whatever the engine answers, failures included. `Session.Shows` speaks of
the result of a session and of the events that it adds to the journal, and `Session.Shows.bind`
composes it along sessions in a row. Most properties of interest accumulate along a run; for these,
called `Cumulative`, there are shorter rules under the name `Session.Obeys`.
-/

namespace SchemaKeeper

/-- The failure that a result is. -/
def failureOf {α : Type} : Except Failure α → Option Failure
  | .ok _ => none
  | .error e => some e

/-- A property of runs, given by the failure that they end with and by their events, that quiet runs
have and that runs in a row have if each of them does. -/
structure Cumulative (inv : Option Failure → List Event → Prop) : Prop where
  quiet : ∀ {failure events}, Event.records events = [] → Event.commands events = [] →
    inv failure events
  append : ∀ {failure first second}, inv none first → inv failure second →
    inv failure (first ++ second)

namespace Event

variable {events : List Event}

theorem mem_records {record : ChangeRecord} (h : .recorded record ∈ events) :
    record ∈ records events :=
  List.mem_filterMap.mpr ⟨_, h, rfl⟩

theorem recorded_of_mem_records {record : ChangeRecord} (h : record ∈ records events) :
    .recorded record ∈ events := by
  obtain ⟨event, hevent, hrecorded⟩ := List.mem_filterMap.mp h
  cases event with
  | recorded r =>
      cases hrecorded
      exact hevent
  | called | attempted | released => cases hrecorded

theorem mem_commands {command : Command} {reply : Reply}
    (h : .called (.execute command) reply ∈ events) : command ∈ commands events :=
  List.mem_filterMap.mpr ⟨_, h, rfl⟩

/-- Where no command was sent, none was answered either. -/
theorem not_sent_of_commands_nil {command : Command} {reply : Reply} (h : commands events = []) :
    .called (.execute command) reply ∉ events :=
  fun hmem => List.ne_nil_of_mem (mem_commands hmem) h

/-- The event neither records a change nor sends a command. -/
structure IsQuiet (event : Event) : Prop where
  unrecorded : ∀ record, event ≠ .recorded record
  unsent : ∀ command reply, event ≠ .called (.execute command) reply

theorem is_quiet_of_mem {event : Event} (hrecords : records events = [])
    (hcommands : commands events = []) (h : event ∈ events) : event.IsQuiet := by
  constructor
  · rintro record rfl
    exact List.ne_nil_of_mem (mem_records h) hrecords
  · rintro command reply rfl
    exact not_sent_of_commands_nil hcommands h

end Event

/-- What holds of each single event accumulates. -/
theorem Cumulative.of_forall {p : Event → Prop}
    (hquiet : ∀ event : Event, event.IsQuiet → p event) :
    Cumulative fun _ events => ∀ event ∈ events, p event := by
  constructor
  · intro failure events hrecords hcommands event hevent
    exact hquiet event (Event.is_quiet_of_mem hrecords hcommands hevent)
  · intro failure first second hfirst hsecond event hevent
    exact (List.mem_append.mp hevent).elim (hfirst event) (hsecond event)

namespace Session

variable {σ α β : Type}

/-- Whatever the engine answers, the result of the session and its events are as stated. -/
def Shows (op : Session σ α) (post : Except Failure α → List Event → Prop) : Prop :=
  ∀ db, post (op.run db).1 (op.trace db)

/-- Whatever the engine answers, the session keeps the property of runs. -/
def Obeys (inv : Option Failure → List Event → Prop) (op : Session σ α) : Prop :=
  op.Shows fun result events => inv (failureOf result) events

/-- The result of two sessions in a row is that of the second one, unless the first one fails. -/
theorem result_bind (op : Session σ α) (f : α → Session σ β) (db : Handle σ) :
    ((op >>= f).run db).1 = match (op.run db).1 with
      | .ok a => ((f a).run (op.run db).2).1
      | .error e => .error e := by
  rw [run_bind]
  rcases op.run db with ⟨e | a, next⟩ <;> rfl

namespace Shows

variable {op : Session σ α} {post post' : Except Failure α → List Event → Prop}

theorem mono (h : op.Shows post) (hpost : ∀ result events, post result events →
    post' result events) : op.Shows post' :=
  fun db => hpost _ _ (h db)

theorem and (h : op.Shows post) (h' : op.Shows post') :
    op.Shows fun result events => post result events ∧ post' result events :=
  fun db => ⟨h db, h' db⟩

protected theorem pure {a : α} (h : post (.ok a) []) : (pure a : Session σ α).Shows post := by
  intro db
  rw [trace_pure]
  exact h

/-- A second session adds its events if the first one succeeds, and else there is no second one. -/
protected theorem bind {f : α → Session σ β} [Grows op] [∀ a, Grows (f a)]
    {next : α → Except Failure β → List Event → Prop}
    {whole : Except Failure β → List Event → Prop} (hop : op.Shows post)
    (hf : ∀ a, (f a).Shows (next a))
    (herror : ∀ e events, post (.error e) events → whole (.error e) events)
    (hok : ∀ a first result second, post (.ok a) first → next a result second →
      whole result (first ++ second)) : (op >>= f).Shows whole := by
  intro db
  have hfirst := hop db
  rw [result_bind]
  rcases h : (op.run db).1 with e | a
  · rw [h] at hfirst
    rw [trace_bind_error h]
    exact herror e _ hfirst
  · rw [h] at hfirst
    rw [trace_bind h]
    exact hok a _ _ _ hfirst (hf a _)

/-- A session that is followed by a value alone. -/
theorem map {whole : Except Failure β → List Event → Prop} [Grows op] (hop : op.Shows post)
    (g : α → β) (herror : ∀ e events, post (.error e) events → whole (.error e) events)
    (hok : ∀ a events, post (.ok a) events → whole (.ok (g a)) events) :
    (op >>= fun a => pure (g a)).Shows whole := by
  have hvalue : ∀ a, (pure (g a) : Session σ β).Shows fun result events =>
      result = .ok (g a) ∧ events = [] := fun _ => Shows.pure ⟨rfl, rfl⟩
  refine hop.bind hvalue herror ?_
  rintro a first _ _ h ⟨rfl, rfl⟩
  rw [List.append_nil]
  exact hok a first h

/-- A value that follows adds no events. -/
theorem map_events {post : List Event → Prop} [Grows op] (hop : op.Shows fun _ => post)
    (g : α → β) : (op >>= fun a => pure (g a)).Shows fun _ => post :=
  hop.map g (fun _ _ h => h) fun _ _ h => h

/-- What cannot be built ends the session before it has begun. -/
theorem built_bind {r : Except BuildError α} {f : α → Session σ β}
    {post : Except Failure β → List Event → Prop}
    (herror : ∀ e, r = .error e → post (.error (.build e)) [])
    (hok : ∀ a, r = .ok a → (f a).Shows post) : (Session.built r >>= f).Shows post := by
  cases r with
  | ok a => exact hok a rfl
  | error e =>
      intro db
      have hrun : (Session.built (.error e) >>= f).run db = (.error (.build e), db) := rfl
      rw [trace_eq_nil (by rw [hrun]), hrun]
      exact herror e rfl

end Shows

namespace Shows

variable {op : Session σ α} {post post' : Except Failure α → List Event → Prop}

/-- An attempt ends as what it attempts ends, and adds an event that says so. -/
theorem attempt [Grows op] {sql : String} (hop : op.Shows post)
    (hpost : ∀ result events failure, post result events →
      post' result (events ++ [.attempted sql failure])) :
    (Session.attempt sql op).Shows post' := by
  intro db
  rw [result_attempt, trace_attempt]
  exact hpost _ _ _ (hop (db.announce sql))

/-- A call ends as its answer says, and its one event is the reply. -/
theorem call {c : Call} {reply : α → Reply} {answer : σ → Except Failure α × σ}
    (hpost : ∀ result, post result [.called c (Reply.ofResult reply result)]) :
    (Session.call c reply answer).Shows post := by
  intro db
  rw [trace_call]
  exact hpost _

end Shows

namespace Obeys

variable {inv : Option Failure → List Event → Prop} {op : Session σ α}

theorem of_quiet (hinv : Cumulative inv) (h : op.Quiet) : op.Obeys inv :=
  fun db => hinv.quiet (h db).1 (h db).2

protected theorem pure (hinv : Cumulative inv) (a : α) : (pure a : Session σ α).Obeys inv :=
  of_quiet hinv (Quiet.pure a)

protected theorem bind (hinv : Cumulative inv) {f : α → Session σ β} [Grows op]
    [∀ a, Grows (f a)] (hop : op.Obeys inv) (hf : ∀ a, (f a).Obeys inv) : (op >>= f).Obeys inv :=
  Shows.bind hop hf (fun _ _ h => h) fun _ _ _ _ h h' => hinv.append h h'

theorem built_bind (hinv : Cumulative inv) {r : Except BuildError α} {f : α → Session σ β}
    (hf : ∀ a, r = .ok a → (f a).Obeys inv) : (Session.built r >>= f).Obeys inv :=
  Shows.built_bind (fun _ _ => hinv.quiet rfl rfl) hf

/-- A session that is followed by a value alone. -/
theorem map (hinv : Cumulative inv) [Grows op] (hop : op.Obeys inv) (g : α → β) :
    (op >>= fun a => pure (g a)).Obeys inv :=
  hop.bind hinv fun _ => .pure hinv _

end Obeys

/-- What a call that needs a connection brings is the reply of the engine. -/
theorem connected_call_shows (b : Backend σ) (sql : String) (c : Call) (reply : α → Reply)
    (answer : σ → Except Failure α × σ) :
    (attempt sql (connect b >>= fun _ => call c reply answer)).Shows fun result events =>
      ∀ a, result = .ok a → .called c (reply a) ∈ events := by
  have hcall : (call c reply answer).Shows fun result events =>
      ∀ a, result = .ok a → .called c (reply a) ∈ events := by
    refine Shows.call ?_
    rintro _ a rfl
    exact List.mem_singleton_self _
  have hconnect : (connect b).Shows fun _ _ => True := fun _ => trivial
  have hboth : (connect b >>= fun _ => call c reply answer).Shows fun result events =>
      ∀ a, result = .ok a → .called c (reply a) ∈ events :=
    hconnect.bind (fun _ => hcall) (fun _ _ _ _ h => nomatch h)
      fun _ _ _ _ _ h a hresult => List.mem_append_right _ (h a hresult)
  exact hboth.attempt fun _ _ _ h a hresult => List.mem_append_left _ (h a hresult)

/-- How the execution of a command can go: it succeeds, the engine reports a failure and nothing
follows, or the engine is not reached at all. -/
inductive Execution (d : Dialect) (command : Command) : Except Failure Nat → List Event → Prop where
  | done (before : List Event) (count : Nat) (hrecords : Event.records before = [])
      (hcommands : Event.commands before = []) :
      Execution d command (.ok count) (before ++ [.called (.execute command) (.affected count),
        .attempted (command.sql d) none])
  | failed (before : List Event) (e : Failure) (hrecords : Event.records before = [])
      (hcommands : Event.commands before = []) :
      Execution d command (.error e) (before ++ [.called (.execute command) (.failed e),
        .attempted (command.sql d) (some e)])
  | unsent (events : List Event) (e : Failure) (hrecords : Event.records events = [])
      (hcommands : Event.commands events = []) : Execution d command (.error e) events

theorem execute_shows (b : Backend σ) (command : Command) :
    (execute b command).Shows (Execution b.dialect command) := by
  intro db
  rw [execute, result_attempt, trace_attempt]
  generalize db.announce (command.sql b.dialect) = start
  obtain ⟨hrecords, hcommands⟩ := Quiet.connect b start
  rw [result_bind]
  rcases hconnect : ((connect b).run start).1 with e | ⟨⟨⟩⟩
  · rw [trace_bind_error hconnect]
    refine .unsent _ e ?_ ?_
    · rw [Event.records_append, hrecords]
      rfl
    · rw [Event.commands_append, hcommands]
      rfl
  · rw [trace_bind hconnect, trace_call, List.append_assoc]
    have hcall : ((call (.execute command) Reply.affected (b.execute command)).run
        ((connect b).run start).2).1 = (b.execute command ((connect b).run start).2.engine).1 := rfl
    dsimp only
    rw [hcall]
    rcases (b.execute command ((connect b).run start).2.engine).1 with e | count
    · exact .failed _ e hrecords hcommands
    · exact .done _ count hrecords hcommands

end Session

end SchemaKeeper

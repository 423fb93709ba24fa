import SchemaKeeper.Proofs.Session.Conduct
import SchemaKeeper.Proofs.Synchronization.Account

/-!
# What became of the statements that were sent

`Event.attempts` gives the definition statements that some events sent to the engine, each with
whether the engine carried it out. Statements that go one after another are carried out until the
engine fails one of them: a connection over which one of them got through is open for the next, so
that none is left out without a failed attempt. `Synchronization.execute_all_tried` says so under
any answers.
-/

namespace SchemaKeeper

/-- A definition statement that was sent, and whether the engine carried it out. -/
structure Attempt where
  statement : Ddl
  succeeded : Bool
  deriving DecidableEq, Repr

namespace Event

/-- The attempt that an event is. -/
def attempt? : Event → Option Attempt
  | .called (.execute (.ddl s)) (.affected _) => some ⟨s, true⟩
  | .called (.execute (.ddl s)) _ => some ⟨s, false⟩
  | _ => none

/-- The attempts among some events. -/
def attempts (events : List Event) : List Attempt := events.filterMap attempt?

@[simp] theorem attempts_append (first second : List Event) :
    attempts (first ++ second) = attempts first ++ attempts second :=
  List.filterMap_append

/-- Where no command was sent there is no attempt. -/
theorem attempts_eq_nil {events : List Event} (h : commands events = []) :
    attempts events = [] := by
  refine List.filterMap_eq_nil_iff.mpr fun event hevent => ?_
  cases event with
  | called call reply =>
      cases call with
      | execute command => exact absurd hevent (not_sent_of_commands_nil h)
      | connect | fetch | describe => rfl
  | attempted | recorded | released => rfl

end Event

/-- How statements can go one after another on an open connection: all of them succeed, or the
engine fails one of them and nothing follows. -/
inductive Attempted : List Ddl → Option Failure → List Attempt → Prop where
  | all (statements : List Ddl) : Attempted statements none (statements.map fun s => ⟨s, true⟩)
  | stopped (done : List Ddl) (s : Ddl) (rest : List Ddl) (e : Failure) :
      Attempted (done ++ s :: rest) (some e) (done.map (fun s => ⟨s, true⟩) ++ [⟨s, false⟩])

/-- One more statement in front of the others, which succeeds. -/
theorem Attempted.cons {statements : List Ddl} {failure : Option Failure} {attempts : List Attempt}
    (h : Attempted statements failure attempts) (s : Ddl) :
    Attempted (s :: statements) failure (⟨s, true⟩ :: attempts) := by
  cases h with
  | all => exact .all (s :: statements)
  | stopped done s' rest e => exact .stopped (s :: done) s' rest e

/-- How statements can go one after another: the engine may also not be reached at all. -/
def Tried (statements : List Ddl) (failure : Option Failure) (attempts : List Attempt) : Prop :=
  Attempted statements failure attempts ∨ failure ≠ none ∧ attempts = []

theorem map_statement (statements : List Ddl) (succeeded : Bool) :
    (statements.map fun s => (⟨s, succeeded⟩ : Attempt)).map Attempt.statement = statements := by
  rw [List.map_map]
  exact List.map_id _

/-- The statements that were attempted are the first ones of those that were to go one after
another. -/
theorem Tried.in_order {statements : List Ddl} {failure : Option Failure} {attempts : List Attempt}
    (h : Tried statements failure attempts) : attempts.map Attempt.statement <+: statements := by
  rcases h with h | ⟨-, rfl⟩
  · cases h with
    | all => exact ⟨[], by rw [List.append_nil, map_statement]⟩
    | stopped done s rest e =>
        rw [List.map_append, map_statement]
        exact ⟨rest, List.append_assoc _ _ _⟩
  · exact List.nil_prefix

/-- If anything was attempted at all, the first of the statements was. -/
theorem Tried.cons_inv {s : Ddl} {rest : List Ddl} {failure : Option Failure}
    {attempts : List Attempt} (h : Tried (s :: rest) failure attempts) :
    attempts = [] ∨ ∃ succeeded more, attempts = ⟨s, succeeded⟩ :: more ∧
      more.map Attempt.statement <+: rest := by
  have horder := h.in_order
  cases attempts with
  | nil => exact .inl rfl
  | cons a more =>
      obtain ⟨rfl, hmore⟩ := List.cons_prefix_cons.mp horder
      exact .inr ⟨a.succeeded, more, rfl, hmore⟩

namespace Session

variable {σ : Type} {b : Backend σ} {db : Handle σ}

/-- A connection that was opened is open. -/
theorem connected_of_connect (h : ((connect b).run db).1 = .ok ()) :
    ((connect b).run db).2.connected = true := by
  by_cases hconnected : db.connected
  · have hrun : (connect b).run db = (.ok (), db) := if_pos hconnected
    rw [hrun]
    exact hconnected
  · have hrun : (connect b).run db = (openConnection b).run db := if_neg hconnected
    rw [hrun] at h ⊢
    obtain ⟨config, hconfig, h⟩ := run_bind_ok h
    unfold openConnection
    rw [run_bind_of_ok hconfig]
    obtain ⟨⟨⟩, hcall, -⟩ := run_bind_ok h
    rw [run_bind_of_ok hcall]
    rfl

/-- An attempt that succeeds leaves what the session that it attempts leaves, and its outcome in the
journal. -/
theorem run_attempt_ok {α : Type} {sql : String} {op : Session σ α} {a : α}
    (h : (op.run (db.announce sql)).1 = .ok a) : ((attempt sql op).run db).2 =
      (op.run (db.announce sql)).2.log (.attempted sql none) := by
  show (Session.attempt sql op db).2 = _
  unfold Session.attempt
  rw [Session.run] at h ⊢
  rcases hrun : op (db.announce sql) with ⟨e | a, next⟩
  · rw [hrun] at h
    cases h
  · rfl

/-- After a command that succeeded the connection is open. -/
theorem connected_of_execute {command : Command} {count : Nat}
    (h : ((execute b command).run db).1 = .ok count) :
    ((execute b command).run db).2.connected = true := by
  rw [execute, result_attempt] at h
  obtain ⟨⟨⟩, hconnect, -⟩ := run_bind_ok h
  have hopen := connected_of_connect hconnect
  rw [run_bind_of_ok hconnect] at h
  rw [execute, run_attempt_ok (by rwa [run_bind_of_ok hconnect]), run_bind_of_ok hconnect]
  exact hopen

/-- On an open connection a command is sent. -/
theorem commands_of_connected (h : db.connected = true) (command : Command) :
    Event.commands ((execute b command).trace db) = [command] := by
  obtain ⟨-, hcommands⟩ := Quiet.connect b (db.announce (command.sql b.dialect))
  have hconnect : ((connect b).run (db.announce (command.sql b.dialect))).1 = .ok () :=
    congrArg Prod.fst (if_pos h)
  rw [execute, trace_attempt, trace_bind hconnect, trace_call, Event.commands_append,
    Event.commands_append, hcommands]
  rfl

/-- How one statement can go: it succeeds and leaves the connection open, the engine fails it, or
it is not sent, for want of a connection. -/
theorem execute_attempts (b : Backend σ) (s : Ddl) (db : Handle σ) :
    (∃ count, ((execute b (.ddl s)).run db).1 = .ok count ∧
      Event.attempts ((execute b (.ddl s)).trace db) = [⟨s, true⟩] ∧
      ((execute b (.ddl s)).run db).2.connected = true) ∨
    ∃ e, ((execute b (.ddl s)).run db).1 = .error e ∧
      (Event.attempts ((execute b (.ddl s)).trace db) = [⟨s, false⟩] ∨
        Event.attempts ((execute b (.ddl s)).trace db) = [] ∧ db.connected = false) := by
  have hshows := execute_shows b (.ddl s) db
  have hopen : ∀ count, ((execute b (.ddl s)).run db).1 = .ok count →
      ((execute b (.ddl s)).run db).2.connected = true := fun _ => connected_of_execute
  have hsent : db.connected = true →
      Event.commands ((execute b (.ddl s)).trace db) = [.ddl s] :=
    fun h => commands_of_connected h _
  revert hshows hopen hsent
  generalize (execute b (.ddl s)).trace db = events
  generalize ((execute b (.ddl s)).run db).1 = result
  intro hshows hopen hsent
  cases hshows with
  | done before count _ hcommands =>
      refine .inl ⟨count, rfl, ?_, hopen count rfl⟩
      rw [Event.attempts_append, Event.attempts_eq_nil hcommands]
      rfl
  | failed before e _ hcommands =>
      refine .inr ⟨e, rfl, .inl ?_⟩
      rw [Event.attempts_append, Event.attempts_eq_nil hcommands]
      rfl
  | unsent _ e _ hcommands =>
      refine .inr ⟨e, rfl, .inr ⟨Event.attempts_eq_nil hcommands, ?_⟩⟩
      rw [hcommands] at hsent
      simpa using hsent

end Session

namespace Synchronization

open Session

variable {σ : Type}

/-- Statements that are executed one after another go on until one of them fails, unless there is
no connection to begin with. -/
theorem execute_all_attempted (b : Backend σ) (statements : List Ddl) (db : Handle σ) :
    Attempted statements (failureOf ((executeAll b statements).run db).1)
        (Event.attempts ((executeAll b statements).trace db)) ∨
      db.connected = false ∧ failureOf ((executeAll b statements).run db).1 ≠ none ∧
        Event.attempts ((executeAll b statements).trace db) = [] := by
  induction statements generalizing db with
  | nil =>
      have htrace : (executeAll b []).trace db = [] := trace_pure () db
      rw [htrace]
      exact .inl (.all [])
  | cons s rest ih =>
      have hcons : executeAll b (s :: rest) = execute b (.ddl s) >>= fun _ => executeAll b rest :=
        rfl
      rw [hcons, result_bind]
      obtain ⟨count, hresult, hattempts, hopen⟩ | ⟨e, hresult, hattempts⟩ :=
        execute_attempts b s db
      · rw [trace_bind hresult, hresult, Event.attempts_append, hattempts]
        obtain hrest | ⟨hclosed, -⟩ := ih ((execute b (.ddl s)).run db).2
        · exact .inl (hrest.cons s)
        · rw [hopen] at hclosed
          cases hclosed
      · rw [trace_bind_error hresult, hresult]
        obtain hfailed | ⟨hunsent, hclosed⟩ := hattempts
        · rw [hfailed]
          exact .inl (.stopped [] s rest e)
        · exact .inr ⟨hclosed, (fun h => nomatch h), hunsent⟩

theorem execute_all_tried (b : Backend σ) (statements : List Ddl) :
    (executeAll b statements).Shows fun result events =>
      Tried statements (failureOf result) (Event.attempts events) :=
  fun db => (execute_all_attempted b statements db).imp_right And.right

end Synchronization

end SchemaKeeper

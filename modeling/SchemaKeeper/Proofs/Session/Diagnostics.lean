import SchemaKeeper.Proofs.Session.Composition
import SchemaKeeper.Proofs.Session.Moments

/-!
# Truthful diagnostics

A handle remembers the last statement that was begun, how it failed if it did, and the total of the
last selection. `Handle.Truthful` reads the first two off the journal, in which every call that has
a statement stands right before the outcome of this statement. `Operation.Totals` reads the total
off the operations: it belongs to the last selection that succeeded. Both hold after every history
of operations, which is `Operation.diagnostics_truthful`.
-/

namespace SchemaKeeper

/-- The failure that a reply is. -/
def Reply.failure? : Reply → Option Failure
  | .failed e => some e
  | _ => none

/-- What is remembered of how a statement ended: nothing if it succeeded, the message of the engine
if this is who failed it, and any other failure in words. -/
structure Failure.Diagnosed (failure : Option Failure) (error : Option String) : Prop where
  succeeded : failure = none → error = none
  statement : ∀ sql message source, failure = some (.statement sql message source) →
    error = some message
  other : ∀ e, failure = some e → e.sql? = none → error = some e.message

variable {σ α : Type} {b : Backend σ}

namespace Event

/-- The statements that some events began, each with the failure that it ended with. -/
def outcomes (events : List Event) : List (String × Option Failure) :=
  events.filterMap fun
    | .attempted sql failure => some (sql, failure)
    | _ => none

@[simp] theorem outcomes_append (first second : List Event) :
    outcomes (first ++ second) = outcomes first ++ outcomes second :=
  List.filterMap_append

/-- Every call that has a statement stands right before the outcome of this statement, which is what
the engine replied. -/
def Answered (b : Backend σ) (events : List Event) : Prop :=
  ∀ before c reply after sql, events = before ++ .called c reply :: after → c.sql? b = some sql →
    ∃ rest, after = .attempted sql reply.failure? :: rest

namespace Answered

theorem nil : Answered b [] := by
  intro before c reply after sql hevents
  cases before <;> cases hevents

theorem append {first second : List Event} (hfirst : Answered b first)
    (hsecond : Answered b second) : Answered b (first ++ second) := by
  intro before c reply after sql hevents hsql
  rcases append_eq_append_cons hevents with ⟨rest, hcut, rfl⟩ | ⟨rest, -, hcut⟩
  · obtain ⟨rest', rfl⟩ := hfirst before c reply rest sql hcut hsql
    exact ⟨rest' ++ second, rfl⟩
  · exact hsecond rest c reply after sql hcut hsql

/-- Where no call has a statement, none has to be answered. -/
theorem of_unstated {events : List Event}
    (h : ∀ c reply, .called c reply ∈ events → c.sql? b = none) : Answered b events := by
  rintro before c reply after sql rfl hsql
  have hnone := h c reply (List.mem_append_right _ List.mem_cons_self)
  cases hnone.symm.trans hsql

theorem call {c : Call} {sql : String} (hsql : c.sql? b = some sql) {reply : Reply}
    {failure : Option Failure} (hreply : reply.failure? = failure) :
    Answered b [.called c reply, .attempted sql failure] := by
  intro before c' reply' after sql' hevents hsql'
  rcases List.cons_eq_append_iff.mp hevents with ⟨rfl, hcons⟩ | ⟨rest, rfl, hcons⟩
  · cases hcons
    cases hsql.symm.trans hsql'
    exact ⟨[], by rw [hreply]⟩
  · rcases List.cons_eq_append_iff.mp hcons with ⟨rfl, hcons⟩ | ⟨rest', rfl, hnil⟩
    · cases hcons
    · cases (List.append_eq_nil_iff.mp hnil.symm).2

end Answered

/-- The events leave the statement and the error to be remembered. -/
structure Diagnose (b : Backend σ) (events : List Event) (query error : Option String) :
    Prop where
  /-- Before any statement is begun there is nothing to remember. -/
  silent : outcomes events = [] → query = none ∧ error = none
  /-- It is the last statement that is remembered, with how it ended. -/
  last : ∀ before sql failure, outcomes events = before ++ [(sql, failure)] →
    query = some sql ∧ Failure.Diagnosed failure error
  answered : Answered b events

namespace Diagnose

variable {events : List Event} {query error : Option String}

theorem nil : Diagnose b [] none none := by
  refine ⟨fun _ => ⟨rfl, rfl⟩, fun before _ _ h => ?_, .nil⟩
  cases before <;> cases h

/-- Events that have to do with no statement change nothing. -/
theorem other (h : Diagnose b events query error) {events' : List Event}
    (houtcomes : outcomes events' = [])
    (hunstated : ∀ c reply, .called c reply ∈ events' → c.sql? b = none) :
    Diagnose b (events ++ events') query error := by
  have hsame : outcomes (events ++ events') = outcomes events := by
    rw [outcomes_append, houtcomes, List.append_nil]
  refine ⟨?_, ?_, h.answered.append (.of_unstated hunstated)⟩
  · rw [hsame]
    exact h.silent
  · rw [hsame]
    exact h.last

end Diagnose

end Event

namespace Session

open Event

variable {db next : Handle σ}

/-- Asking for a connection adds at most the calls that connect, and nothing if one is held. -/
theorem Connecting.opening {result : Except Failure Unit} (h : Connecting b db result next) :
    ∃ opening, next.journal = db.journal ++ opening ∧ (∀ event ∈ opening, event.Connects) ∧
      (db.connected = true → opening = []) := by
  have hclosed : db.connected = false → ∀ opening : List Event, db.connected = true →
      opening = [] := fun hclosed _ hopen => absurd (hclosed.symm.trans hopen) nofun
  cases h with
  | held | unresolved => exact ⟨[], (List.append_nil _).symm, List.forall_mem_nil _, fun _ => rfl⟩
  | refused config e engine h _ =>
      exact ⟨[.called (.connect config) (.failed e)], rfl, List.forall_mem_singleton.mpr trivial,
        hclosed h _⟩
  | opened config engine h _ =>
      exact ⟨[.called (.connect config) .done], rfl, List.forall_mem_singleton.mpr trivial,
        hclosed h _⟩

/-- Asking for a connection touches nothing that is remembered. -/
theorem Connecting.remembers {result : Except Failure Unit} (h : Connecting b db result next) :
    next.lastQuery = db.lastQuery ∧ next.lastError = db.lastError ∧
      next.lastTotal = db.lastTotal := by
  cases h <;> exact ⟨rfl, rfl, rfl⟩

/-- No step but the one that sets the total changes it. -/
theorem keeps_total (b : Backend σ) (total : Option Nat) :
    Keeps b False fun db => db.lastTotal = total where
  connect hconnect hdb := hconnect.remembers.2.2.trans hdb
  statement _ _ hstating hdb := by
    cases hstating with
    | unsent _ _ hconnect | failed _ _ _ hconnect | replied _ _ _ hconnect =>
        exact hconnect.remembers.2.2.trans hdb
  note _ hdb := hdb
  setTotal htotals := htotals.elim

/-- The total is what the first value of the first row reads as, if this is a number that is not
negative, and otherwise it is unknown. -/
def Counts (rows : List Row) (total : Option Nat) : Prop :=
  ∀ n : Nat, total = some n ↔ ∃ name value fields rest i,
    rows = ⟨(name, some value) :: fields⟩ :: rest ∧ Scalar.toInt? value = some i ∧ i.toInt = n

theorem counts_count_of (rows : List Row) : Counts rows (countOf rows) := by
  intro n
  unfold countOf
  constructor
  · intro h
    rcases rows with _ | ⟨⟨_ | ⟨⟨name, _ | value⟩, fields⟩⟩, rest⟩
    · cases h
    · cases h
    · cases h
    · refine ⟨name, value, fields, rest, ?_⟩
      cases hread : value.toInt? with
      | none => simp [Row.first?, hread] at h
      | some i =>
          simp only [Row.first?, hread, List.head?_cons, Option.map_some, Option.join_some,
            Option.bind_some] at h
          split at h
          · exact ⟨i, rfl, rfl, by cases h; omega⟩
          · cases h
  · rintro ⟨name, value, fields, rest, i, rfl, hread, hi⟩
    simp [Row.first?, hread, hi]

/-- A selection that succeeds: the events behind it, its rows, and the total that it finds. Without
a limit this is the number of the rows. With one, a companion statement counts all of them first. -/
inductive Selection (b : Backend σ) (q : Query) : List Event → List Row → Option Nat → Prop where
  | whole {sql : String} (hlimit : q.limit = none) (hsql : q.selectSql b.dialect = .ok sql)
      (opening : List Event) (hopening : ∀ event ∈ opening, event.Connects) (rows : List Row) :
      Selection b q (opening ++ [.called (.fetch sql) (.rows rows), .attempted sql none]) rows
        (some rows.length)
  | limited {sql countSql : String} {limit : Limit} (hlimit : q.limit = some limit)
      (hsql : q.selectSql b.dialect = .ok sql) (hcount : q.countSql b.dialect = .ok countSql)
      (opening : List Event) (hopening : ∀ event ∈ opening, event.Connects)
      (counted rows : List Row) {total : Option Nat} (htotal : Counts counted total) :
      Selection b q (opening ++ [.called (.fetch countSql) (.rows counted),
        .attempted countSql none, .called (.fetch sql) (.rows rows), .attempted sql none]) rows
        total

/-- The rows of a query with the total, before this is remembered. -/
def found (b : Backend σ) (q : Query) : Session σ (List Row × Option Nat) := do
  let sql ← built (q.selectSql b.dialect)
  match q.limit with
  | some _ =>
    let countSql ← built (q.countSql b.dialect)
    let counted ← query b countSql
    let rows ← query b sql
    return (rows, countOf counted)
  | none =>
    let rows ← query b sql
    return (rows, some rows.length)

theorem select_eq (b : Backend σ) (q : Query) :
    select b q = found b q >>= fun r => setTotal r.2 >>= fun _ => pure r.1 := by
  unfold select found
  cases q.limit <;> simp

theorem found_composed (b : Backend σ) (q : Query) : Composed b False (found b q) := by
  refine (Composed.built _).bind fun sql => ?_
  cases q.limit with
  | none => exact (Composed.query b sql).bind fun rows => .pure _
  | some _ =>
      exact (Composed.built _).bind fun _ => (Composed.query b _).bind fun _ =>
        (Composed.query b sql).bind fun _ => .pure _

/-- A statement that fetches rows: the connection may have to be opened for it, and is held then. -/
theorem query_ok {sql : String} {rows : List Row} (h : ((query b sql).run db).1 = .ok rows) :
    ((query b sql).run db).2.connected = true ∧ ∃ opening,
      (query b sql).trace db =
        opening ++ [.called (.fetch sql) (.rows rows), .attempted sql none] ∧
      (∀ event ∈ opening, event.Connects) ∧ (db.connected = true → opening = []) := by
  have hstating := stating b sql (.fetch sql) Reply.rows (b.fetch sql) db
  change Stating b sql (.fetch sql) Reply.rows db ((query b sql).run db).1
    ((query b sql).run db).2 at hstating
  rw [h] at hstating
  generalize hnext : ((query b sql).run db).2 = next at hstating
  cases hstating with
  | replied _ mid engine hconnect =>
      obtain ⟨opening, hjournal, hopening, hnone⟩ := hconnect.opening
      refine ⟨hconnect.connected, opening, trace_eq ?_, hopening, hnone⟩
      simp [hnext, Handle.log, hjournal, Handle.announce]

section Found

variable {q : Query} {sql countSql : String} {rows : List Row} {total : Option Nat}

theorem found_unlimited (hlimit : q.limit = none) (hsql : q.selectSql b.dialect = .ok sql) :
    found b q = query b sql >>= fun rows => pure (rows, some rows.length) := by
  unfold found
  rw [hsql, hlimit]
  rfl

theorem found_limited {limit : Limit} (hlimit : q.limit = some limit)
    (hsql : q.selectSql b.dialect = .ok sql) (hcount : q.countSql b.dialect = .ok countSql) :
    found b q = query b countSql >>= fun counted => query b sql >>= fun rows =>
      pure (rows, countOf counted) := by
  unfold found
  rw [hsql, hlimit, hcount]
  rfl

/-- What is found was asked for with statements that could be built. -/
theorem built_of_found (h : ((found b q).run db).1 = .ok (rows, total)) :
    ∃ sql, q.selectSql b.dialect = .ok sql ∧
      ∀ limit, q.limit = some limit → ∃ countSql, q.countSql b.dialect = .ok countSql := by
  unfold found at h
  cases hsql : q.selectSql b.dialect with
  | error e =>
      rw [hsql] at h
      cases h
  | ok sql =>
      refine ⟨sql, rfl, fun limit hlimit => ?_⟩
      cases hcount : q.countSql b.dialect with
      | error e =>
          rw [hsql, hlimit, hcount] at h
          cases h
      | ok countSql => exact ⟨countSql, rfl⟩

theorem found_ok (h : ((found b q).run db).1 = .ok (rows, total)) :
    Selection b q ((found b q).trace db) rows total := by
  obtain ⟨sql, hsql, hcountable⟩ := built_of_found h
  cases hlimit : q.limit with
  | none =>
      rw [found_unlimited hlimit hsql] at h ⊢
      obtain ⟨rows', hrows, hend⟩ := run_bind_ok h
      cases hend
      obtain ⟨-, opening, htrace, hopening, -⟩ := query_ok hrows
      rw [trace_bind hrows, trace_pure, List.append_nil, htrace]
      exact .whole hlimit hsql opening hopening rows
  | some limit =>
      obtain ⟨countSql, hcount⟩ := hcountable limit hlimit
      rw [found_limited hlimit hsql hcount] at h ⊢
      obtain ⟨counted, hcounted, hrest⟩ := run_bind_ok h
      obtain ⟨rows', hrows, hend⟩ := run_bind_ok hrest
      cases hend
      obtain ⟨hheld, opening, htrace, hopening, -⟩ := query_ok hcounted
      -- the connection is held since the count, so that the selection finds it open
      obtain ⟨-, opening', htrace', -, hnone⟩ := query_ok hrows
      cases hnone hheld
      rw [trace_bind hcounted, trace_bind hrows, trace_pure, List.append_nil, htrace, htrace',
        List.append_assoc]
      exact .limited hlimit hsql hcount opening hopening counted rows (counts_count_of counted)

end Found

/-- A selection sets the total that it finds if it succeeds, and no total if it fails. -/
theorem select_total (b : Backend σ) (q : Query) (db : Handle σ) :
    (∃ e, ((select b q).run db).1 = .error e ∧
      ((select b q).run db).2.lastTotal = db.lastTotal) ∨
    ∃ rows, ((select b q).run db).1 = .ok rows ∧
      Selection b q ((select b q).trace db) rows ((select b q).run db).2.lastTotal := by
  have := (found_composed b q).grows
  rw [select_eq]
  rcases run_bind_cases (found b q) (fun r => setTotal r.2 >>= fun _ => pure r.1) db with
    ⟨e, -, hrun⟩ | ⟨⟨rows, total⟩, hfound, hrun⟩
  all_goals rw [hrun]
  · exact .inl ⟨e, rfl, (found_composed b q).keeps (keeps_total b db.lastTotal) rfl⟩
  · have htrace : (setTotal total >>= fun _ => pure rows : Session σ (List Row)).trace
        ((found b q).run db).2 = [] := trace_eq_nil rfl
    rw [trace_bind hfound, htrace, List.append_nil]
    exact .inr ⟨rows, rfl, found_ok hfound⟩

end Session

namespace Operation

open Session

/-- What a selection gives of the rows that it selects: all of them or the first one. -/
def pick : Operation → List Row → Result
  | .select _, rows => .rows rows
  | _, rows => .row rows.head?

theorem run_of_selection {op : Operation} {q : Query} (b : Backend σ) (h : op.selection? = some q)
    (db : Handle σ) : (op.run b).run db =
      (((Session.select b q).run db).1.map op.pick, ((Session.select b q).run db).2) := by
  have hselects : op.run b = op.pick <$> Session.select b q := by
    cases op with
    | select q' =>
        cases h
        rfl
    | first q' | get table columns filter =>
        cases h
        simp only [Operation.run, Session.get, Session.first, map_bind, map_pure]
        rw [map_eq_pure_bind]
        rfl
    | _ => cases h
  rw [hselects, run_map]

/-- The operation selects rows and succeeds. -/
def Selected (b : Backend σ) (op : Operation) (db : Handle σ) : Prop :=
  op.selection?.isSome = true ∧ ∃ result, ((op.run b).run db).1 = .ok result

/-- Any operation but a selection that succeeds leaves the total as it is. -/
theorem total_unmoved {op : Operation} {db : Handle σ} (h : ¬ op.Selected b db) :
    ((op.run b).run db).2.lastTotal = db.lastTotal := by
  cases hselection : op.selection? with
  | none =>
      refine op.run_keeps ((keeps_total b db.lastTotal).mono ?_) (fun _ _ h => h) (fun _ h => h) rfl
      simp [hselection]
  | some q =>
      have hrun := run_of_selection b hselection db
      rcases select_total b q db with ⟨e, -, htotal⟩ | ⟨rows, hrows, -⟩
      · rw [hrun]
        exact htotal
      · refine absurd ⟨by simp [hselection], op.pick rows, ?_⟩ h
        rw [hrun, hrows]
        rfl

/-- A selection that succeeds gives what it selects and sets the total that it finds. -/
theorem total_of_selected {op : Operation} {db : Handle σ} (h : op.Selected b db) :
    ∃ q rows, op.selection? = some q ∧ ((op.run b).run db).1 = .ok (op.pick rows) ∧
      Selection b q ((op.run b).trace db) rows ((op.run b).run db).2.lastTotal := by
  obtain ⟨hsome, result, hresult⟩ := h
  obtain ⟨q, hselection⟩ := Option.isSome_iff_exists.mp hsome
  have hrun := run_of_selection b hselection db
  rcases select_total b q db with ⟨e, he, -⟩ | ⟨rows, hrows, hselected⟩
  · rw [hrun, he] at hresult
    cases hresult
  · refine ⟨q, rows, hselection, ?_, ?_⟩
    · rw [hrun, hrows]
      rfl
    · unfold trace
      rw [hrun]
      exact hselected

/-- The total after a history of operations. -/
structure Totals (b : Backend σ) (start : Handle σ) (ops : List Operation) : Prop where
  /-- As long as no selection succeeds there is no total. -/
  unset : (∀ before op after, ops = before ++ op :: after →
    ¬ op.Selected b (runAll b start before)) → (runAll b start ops).lastTotal = none
  /-- The total is the one of the last selection that succeeded. -/
  last : ∀ before op after, ops = before ++ op :: after → op.Selected b (runAll b start before) →
    (∀ between op' after', after = between ++ op' :: after' →
      ¬ op'.Selected b (runAll b start (before ++ op :: between))) →
    ∃ q rows, op.selection? = some q ∧
      ((op.run b).run (runAll b start before)).1 = .ok (op.pick rows) ∧
      Selection b q ((op.run b).trace (runAll b start before)) rows (runAll b start ops).lastTotal
  /-- Any other operation, and a selection that fails, leaves it as it is. -/
  unmoved : ∀ op : Operation, ¬ op.Selected b (runAll b start ops) →
    ((op.run b).run (runAll b start ops)).2.lastTotal = (runAll b start ops).lastTotal

theorem run_all_append (b : Backend σ) (db : Handle σ) (first second : List Operation) :
    runAll b db (first ++ second) = runAll b (runAll b db first) second := by
  induction first generalizing db with
  | nil => rfl
  | cons op rest ih => exact ih _

/-- Operations among which no selection succeeds leave the total as it is. -/
theorem run_all_total {db : Handle σ} {ops : List Operation}
    (h : ∀ before op after, ops = before ++ op :: after → ¬ op.Selected b (runAll b db before)) :
    (runAll b db ops).lastTotal = db.lastTotal := by
  induction ops generalizing db with
  | nil => rfl
  | cons op rest ih =>
      have hrest : (runAll b ((op.run b).run db).2 rest).lastTotal =
          ((op.run b).run db).2.lastTotal := by
        refine ih fun before op' after hops => ?_
        exact h (op :: before) op' after (by rw [hops, List.cons_append])
      exact hrest.trans (total_unmoved (h [] op rest rfl))

theorem totals (b : Backend σ) (settings : Option Config) (environment : Environment) (engine : σ)
    (ops : List Operation) : Totals b (.start settings environment engine) ops := by
  refine ⟨fun h => run_all_total h, ?_, fun op => total_unmoved⟩
  rintro before op after rfl hselected hlater
  obtain ⟨q, rows, hselection, hresult, hfound⟩ := total_of_selected hselected
  have htotal : (runAll b (.start settings environment engine) (before ++ op :: after)).lastTotal =
      ((op.run b).run (runAll b (.start settings environment engine) before)).2.lastTotal := by
    rw [run_all_append]
    show (runAll b _ after).lastTotal = _
    refine run_all_total fun between op' after' hafter => ?_
    have hnone := hlater between op' after' hafter
    rwa [run_all_append] at hnone
  rw [htotal]
  exact ⟨q, rows, hselection, hresult, hfound⟩

end Operation

end SchemaKeeper

import SchemaKeeper.Proofs.Session.Selections

/-!
# Requests that cannot be built

A request on rows or on the structure of a table builds a statement, or the name of its table, from
its arguments: `Operation.draft?`. `Operation.refused_untouched` says that a request that cannot be
built fails with the error of building and leaves the handle and everything around it as they are,
and that this happens to no other request: one that can be built begins its statement, whatever the
engine then makes of it.
-/

namespace SchemaKeeper

variable {σ α β : Type} {b : Backend σ}

namespace Session

/-- The session fails with the error of building, and changes nothing. -/
def Refuses (op : Session σ α) (e : BuildError) : Prop :=
  ∀ db, op.run db = (.error (.build e), db)

namespace Refuses

variable {op : Session σ α} {e : BuildError}

theorem built {r : Except BuildError α} (h : r = .error e) :
    (Session.built r : Session σ α).Refuses e := by
  subst h
  exact fun _ => rfl

theorem bind (h : op.Refuses e) (f : α → Session σ β) : (op >>= f).Refuses e := by
  intro db
  rw [run_bind, h db]

theorem map (h : op.Refuses e) (g : α → β) : (g <$> op).Refuses e := by
  intro db
  rw [run_map, h db]
  rfl

end Refuses

/-- Whatever the engine answers, the session begins a statement. -/
def Begins (op : Session σ α) : Prop := ∀ db, Event.outcomes (op.trace db) ≠ []

namespace Begins

variable {op : Session σ α}

theorem attempt (sql : String) (op : Session σ α) [Grows op] : (Session.attempt sql op).Begins := by
  intro db
  rw [trace_attempt, Event.outcomes_append]
  exact List.append_ne_nil_of_right_ne_nil _ (List.cons_ne_nil _ _)

theorem bind {f : α → Session σ β} [Grows op] [∀ a, Grows (f a)] (h : op.Begins) :
    (op >>= f).Begins := by
  intro db
  cases hrun : (op.run db).1 with
  | error e =>
      rw [trace_bind_error hrun]
      exact h db
  | ok a =>
      rw [trace_bind hrun, Event.outcomes_append]
      exact List.append_ne_nil_of_left_ne_nil (h db) _

theorem built_bind {r : Except BuildError α} {f : α → Session σ β} {a : α} (hr : r = .ok a)
    (h : (f a).Begins) : (Session.built r >>= f).Begins := by
  subst hr
  exact h

theorem map (h : op.Begins) (g : α → β) : (g <$> op).Begins := by
  intro db
  rw [trace_map]
  exact h db

/-- The first of several statements is begun. -/
theorem of_fetches {sql : String} {rest : List String} {value : List Row → α}
    (h : op.Fetches (sql :: rest) value) : op.Begins := by
  intro db
  obtain ⟨answers, hgoes, -⟩ := h db
  generalize db.connected = held at hgoes
  generalize op.trace db = events at hgoes ⊢
  cases hgoes with
  | unsent | failed | replied => simp [Event.outcomes]

end Begins

/-- A selection that can be built begins, with its count or by itself. -/
theorem select_begins {q : Query} {sql : String} (hsql : q.selectSql b.dialect = .ok sql) :
    (select b q).Begins := by
  obtain ⟨source, hsource, -⟩ := Query.select_sql_ok_iff.mp hsql
  cases hlimit : q.limit with
  | none => exact .of_fetches (select_fetches hlimit hsql)
  | some limit =>
      have hcount := Query.count_sql_ok_iff.mpr ⟨source, hsource, rfl⟩
      exact .of_fetches (select_fetches_counted hlimit hsql hcount)

end Session

namespace Operation

open Session

/-- What a request has to build of its arguments: the statement that it is to send, or the name of
its table. An insertion without an id is built with the fresh one. The other operations are given
what they send, or build it in their course. -/
def draft? (d : Dialect) : Operation → Option (Except BuildError String)
  | .select q => some (q.selectSql d)
  | .first q => some (q.single.selectSql d)
  | .get table columns filter => some (Query.selectSql (Query.single { table, columns, filter }) d)
  | .count table filter | .has table filter => some (countSql table filter d)
  | .sum table column filter => some (sumSql table column filter d)
  | .insert table values fresh => some (insertSql table (withId values fresh).2 d)
  | .update table values filter => some (updateSql table values filter d)
  | .delete table filter => some (deleteSql table filter d)
  | .truncate table => some (truncateSql table d)
  | .describe table | .userColumns table | .tableExists table => some (Identifier.sanitize table)
  | _ => none

/-- A request that cannot be built is refused before anything happens. -/
theorem refuses_of_draft {op : Operation} {e : BuildError}
    (h : op.draft? b.dialect = some (.error e)) : (op.run b).Refuses e := by
  have hselect : ∀ q : Query, q.selectSql b.dialect = .error e → (Session.select b q).Refuses e :=
    fun q hq => (Refuses.built hq).bind _
  cases op with
  | setVariables | connect | disconnect | query | execute | tables | updateSchema => cases h
  | select q => exact (hselect q (Option.some.inj h)).map _
  | first q => exact ((hselect q.single (Option.some.inj h)).bind _).map _
  | get table columns filter => exact ((hselect _ (Option.some.inj h)).bind _).map _
  | count | sum | insert | update | delete | truncate | describe | tableExists =>
      exact ((Refuses.built (Option.some.inj h)).bind _).map _
  | has | userColumns => exact (((Refuses.built (Option.some.inj h)).bind _).bind _).map _

/-- A request that can be built begins a statement. -/
theorem begins_of_draft {op : Operation} {text : String}
    (h : op.draft? b.dialect = some (.ok text)) : (op.run b).Begins := by
  have hfirst : ∀ q : Query, q.single.selectSql b.dialect = .ok text →
      (Session.first b q).Begins := by
    intro q hq
    have hcomposed : Composed b True (Session.select b q.single) := .select trivial b q.single
    have := hcomposed.grows
    exact (select_begins hq).bind
  have hexecute : ∀ command, (Session.execute b command).Begins := fun _ => Begins.attempt _ _
  cases op with
  | setVariables | connect | disconnect | query | execute | tables | updateSchema => cases h
  | select q => exact (select_begins (Option.some.inj h)).map _
  | first q => exact (hfirst q (Option.some.inj h)).map _
  | get table columns filter => exact (hfirst _ (Option.some.inj h)).map _
  | count | sum =>
      exact (Begins.built_bind (Option.some.inj h) (Begins.attempt _ _).bind).map _
  | has table filter =>
      have hcomposed : Composed b True (Session.count b table filter) := .count b table filter
      have := hcomposed.grows
      have hcount : (Session.count b table filter).Begins :=
        .built_bind (Option.some.inj h) (Begins.attempt _ _).bind
      exact hcount.bind.map _
  | insert | truncate =>
      exact (Begins.built_bind (Option.some.inj h) (hexecute _).bind).map _
  | update | delete => exact (Begins.built_bind (Option.some.inj h) (hexecute _)).map _
  | tableExists table =>
      have htables : (Session.tables b).Begins := (Begins.attempt _ _).bind
      exact (Begins.built_bind (Option.some.inj h) htables.bind).map _
  | describe table => exact (Begins.built_bind (Option.some.inj h) (Begins.attempt _ _)).map _
  | userColumns table =>
      have hdescribe : (Session.describe b table).Begins :=
        .built_bind (Option.some.inj h) (Begins.attempt _ _)
      exact hdescribe.bind.map _

/-- A request that cannot be built leaves everything as it is. It fails with the error of building,
and the handle afterwards is the handle before: its connection and its settings, its last statement,
error and total, the engine behind it, and the journal, so that nothing was sent, not even to open a
connection. Only such a request goes without a trace: one that can be built begins a statement. -/
theorem refused_untouched (b : Backend σ) (db : Handle σ) {op : Operation}
    {draft : Except BuildError String} (h : op.draft? b.dialect = some draft) :
    (∀ e, draft = .error e → (op.run b).run db = (.error (.build e), db)) ∧
      (∀ text, draft = .ok text → Event.outcomes ((op.run b).trace db) ≠ []) := by
  constructor
  · rintro e rfl
    exact refuses_of_draft h db
  · rintro text rfl
    exact begins_of_draft h db

/-- A handle that has counted and selected, and then failed to delete. -/
def usedHandle : Handle Script :=
  let config : Config := ⟨"localhost", none, "user", "password", "shop"⟩
  { settings := some config, connected := true, lastQuery := some "DELETE FROM posts",
    lastError := some "locked", lastTotal := some 3, environment := [], engine := {},
    journal := [.called (.connect config) .done] }

/-- A page of posts, filtered by a column without a name. -/
def namelessFilter : Query where
  table := "posts"
  columns := ["title"]
  filter := ⟨[(";[>]", .one (.int 17))]⟩
  limit := some (.count 10)

/-- The nameless column is found in building, so that the handle goes on to tell about the deletion
that failed, and the rows are not even counted. -/
theorem nameless_filter_refused :
    draft? .mysql (.select namelessFilter) = some (.error (.emptyIdentifier ";")) ∧
      ((Operation.select namelessFilter).run (Script.backend .mysql)).run usedHandle =
        (.error (.build (.emptyIdentifier ";")), usedHandle) := by
  have hdraft : draft? .mysql (.select namelessFilter) =
      some (.error (.emptyIdentifier ";")) := by decide +kernel
  exact ⟨hdraft, (refused_untouched (Script.backend .mysql) usedHandle hdraft).1 _ rfl⟩

end Operation

end SchemaKeeper

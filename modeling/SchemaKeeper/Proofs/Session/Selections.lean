import SchemaKeeper.Engine.Script
import SchemaKeeper.Proofs.Session.Diagnostics
import SchemaKeeper.Proofs.Statement.Companion

/-!
# What selections send

A selection sends one statement, or two of them if it has to count first. `Session.Fetching` tells
how statements in a row go, whatever the engine answers: each one is sent once the ones before it
were answered with rows, and the first failure is the last thing that happens.
`Session.selection_with_companion` puts this together with the texts of the two statements, which
share their source, for all three selections.
-/

namespace SchemaKeeper

variable {σ α β : Type} {b : Backend σ} {db : Handle σ} {sql : String} {rest : List String}

namespace Session

/-- How statements in a row are fetched, with their answers and the events behind them. Each one is
sent once those before it were answered with rows, and the first failure ends it all. The flag says
whether a connection is held in the beginning; if it is not, the first statement asks for one. -/
inductive Fetching : Bool → List String → Except Failure (List (List Row)) → List Event → Prop where
  | done (held : Bool) : Fetching held [] (.ok []) []
  | unsent {sql : String} {rest : List String} (e : Failure) {opening : List Event}
      (hopening : ∀ event ∈ opening, event.Connects) :
      Fetching false (sql :: rest) (.error e) (opening ++ [.attempted sql (some e)])
  | failed {held : Bool} {sql : String} {rest : List String} (e : Failure) {opening : List Event}
      (hopening : ∀ event ∈ opening, event.Connects) (hheld : held = true → opening = []) :
      Fetching held (sql :: rest) (.error e)
        (opening ++ [.called (.fetch sql) (.failed e), .attempted sql (some e)])
  | replied {held : Bool} {sql : String} {rest : List String} (rows : List Row)
      {opening : List Event} (hopening : ∀ event ∈ opening, event.Connects)
      (hheld : held = true → opening = []) {answers : Except Failure (List (List Row))}
      {events : List Event} (hrest : Fetching true rest answers events) :
      Fetching held (sql :: rest) (answers.map (rows :: ·))
        (opening ++ [.called (.fetch sql) (.rows rows), .attempted sql none] ++ events)

/-- The rows of statements in a row. -/
def fetchAll (b : Backend σ) (sqls : List String) : Session σ (List (List Row)) :=
  sqls.mapM (query b)

theorem fetch_all_nil (b : Backend σ) : fetchAll b [] = pure [] := List.mapM_nil

theorem fetch_all_cons (b : Backend σ) (sql : String) (rest : List String) :
    fetchAll b (sql :: rest) = query b sql >>= fun rows => (rows :: ·) <$> fetchAll b rest := by
  simp only [fetchAll, List.mapM_cons, map_eq_pure_bind]

theorem fetch_all_composed (b : Backend σ) (sqls : List String) :
    Composed b False (fetchAll b sqls) := by
  induction sqls with
  | nil =>
      rw [fetch_all_nil]
      exact .pure []
  | cons sql rest ih =>
      rw [fetch_all_cons]
      exact (Composed.query b sql).bind fun _ => ih.map _

instance grows_fetch_all (b : Backend σ) (sqls : List String) : Grows (fetchAll b sqls) :=
  (fetch_all_composed b sqls).grows

/-- A function that follows a session adds no events. -/
theorem trace_map (g : α → β) (op : Session σ α) (db : Handle σ) :
    (g <$> op).trace db = op.trace db := by
  unfold trace
  rw [run_map]

/-- A statement that fails is the last one. -/
theorem query_fails {e : Failure} (h : ((query b sql).run db).1 = .error e) :
    Fetching db.connected (sql :: rest) (.error e) ((query b sql).trace db) := by
  have hstating := stating b sql (.fetch sql) Reply.rows (b.fetch sql) db
  change Stating b sql (.fetch sql) Reply.rows db ((query b sql).run db).1
    ((query b sql).run db).2 at hstating
  rw [h] at hstating
  generalize hnext : ((query b sql).run db).2 = next at hstating
  cases hstating with
  | unsent _ mid hconnect =>
      obtain ⟨opening, hjournal, hopening, -⟩ := hconnect.opening
      have hclosed : db.connected = false := by
        cases hconnect with
        | unresolved _ hclosed | refused _ _ _ hclosed => exact hclosed
      have htrace : (query b sql).trace db = opening ++ [.attempted sql (some e)] := by
        refine trace_eq ?_
        simp [hnext, Handle.log, Handle.settle, hjournal, Handle.announce]
      rw [htrace, hclosed]
      exact .unsent e hopening
  | failed _ mid engine hconnect =>
      obtain ⟨opening, hjournal, hopening, hnone⟩ := hconnect.opening
      have htrace : (query b sql).trace db =
          opening ++ [.called (.fetch sql) (.failed e), .attempted sql (some e)] := by
        refine trace_eq ?_
        simp [hnext, Handle.log, Handle.settle, hjournal, Handle.announce]
      rw [htrace]
      exact .failed e hopening hnone

/-- Whatever the engine answers, statements in a row go on until one fails. -/
theorem fetch_all_goes (b : Backend σ) (sqls : List String) (db : Handle σ) :
    Fetching db.connected sqls ((fetchAll b sqls).run db).1 ((fetchAll b sqls).trace db) := by
  induction sqls generalizing db with
  | nil =>
      rw [fetch_all_nil, trace_pure]
      exact .done db.connected
  | cons sql rest ih =>
      have hgrows : ∀ rows : List Row, Grows ((rows :: ·) <$> fetchAll b rest) :=
        fun rows => ((fetch_all_composed b rest).map _).grows
      rw [fetch_all_cons, result_bind]
      cases hquery : ((query b sql).run db).1 with
      | error e =>
          rw [trace_bind_error hquery]
          exact query_fails hquery
      | ok rows =>
          obtain ⟨hheld, opening, htrace, hopening, hnone⟩ := query_ok hquery
          -- the connection that the first answer came over serves the others
          have hothers := ih ((query b sql).run db).2
          rw [hheld] at hothers
          rw [trace_bind hquery, htrace, trace_map]
          dsimp only
          rw [run_map]
          exact .replied rows hopening hnone hothers

/-- Whatever the engine answers, the session sends the statements in a row, fails as they do, and
otherwise gives what it makes of the rows of the last one. -/
def Fetches (op : Session σ α) (sqls : List String) (value : List Row → α) : Prop :=
  ∀ db, ∃ answers, Fetching db.connected sqls answers (op.trace db) ∧
    (∀ e, answers = .error e → (op.run db).1 = .error e) ∧
    ∀ before rows, answers = .ok (before ++ [rows]) → (op.run db).1 = .ok (value rows)

namespace Fetches

variable {sqls : List String} {value : List Row → α}

/-- What follows the statements without events, and gives a value of the last rows. -/
theorem of_answers {f : List (List Row) → Session σ α} [∀ answers, Grows (f answers)]
    (hevents : ∀ answers db, (f answers).trace db = [])
    (hvalue : ∀ before rows db, ((f (before ++ [rows])).run db).1 = .ok (value rows)) :
    (fetchAll b sqls >>= f).Fetches sqls value := by
  intro db
  have hgoes := fetch_all_goes b sqls db
  refine ⟨((fetchAll b sqls).run db).1, ?_, ?_, ?_⟩
  · cases hanswers : ((fetchAll b sqls).run db).1 with
    | error e => rwa [trace_bind_error hanswers, ← hanswers]
    | ok answers => rwa [trace_bind hanswers, hevents, List.append_nil, ← hanswers]
  · intro e he
    rw [result_bind, he]
  · intro before rows hanswers
    rw [result_bind, hanswers]
    exact hvalue before rows _

/-- A session that is followed by a function alone sends what it sends. -/
theorem map {op : Session σ α} (h : op.Fetches sqls value) (g : α → β) :
    (g <$> op).Fetches sqls fun rows => g (value rows) := by
  intro db
  obtain ⟨answers, hgoes, herror, hok⟩ := h db
  rw [trace_map, run_map]
  refine ⟨answers, hgoes, fun e he => ?_, fun before rows hanswers => ?_⟩
  · rw [herror e he]
    rfl
  · rw [hok before rows hanswers]
    rfl

end Fetches

variable {q : Query} {count : String}

/-- Without a limit the selection is all that is sent. -/
theorem select_fetches (hlimit : q.limit = none) (hsql : q.selectSql b.dialect = .ok sql) :
    (select b q).Fetches [sql] id := by
  have hselect : select b q = fetchAll b [sql] >>= fun answers =>
      setTotal (some (answers.getLast?.getD []).length) >>= fun _ =>
        pure (answers.getLast?.getD []) := by
    unfold select
    rw [hsql, hlimit]
    simp [fetchAll, built, liftBuild]
    rfl
  rw [hselect]
  refine Fetches.of_answers (fun _ _ => trace_eq_nil rfl) fun before rows db => ?_
  simp
  rfl

/-- With a limit the rows are counted before the selection is sent. -/
theorem select_fetches_counted {limit : Limit} (hlimit : q.limit = some limit)
    (hsql : q.selectSql b.dialect = .ok sql) (hcount : q.countSql b.dialect = .ok count) :
    (select b q).Fetches [count, sql] id := by
  have hselect : select b q = fetchAll b [count, sql] >>= fun answers =>
      setTotal (countOf (answers.head?.getD [])) >>= fun _ =>
        pure (answers.getLast?.getD []) := by
    unfold select
    rw [hsql, hlimit, hcount]
    simp [fetchAll, built, liftBuild]
    rfl
  rw [hselect]
  refine Fetches.of_answers (fun _ _ => trace_eq_nil rfl) fun before rows db => ?_
  simp
  rfl

/-- A selection of the first row sends what the selection of one row does. -/
theorem first_fetches (hsql : q.single.selectSql b.dialect = .ok sql)
    (hcount : q.single.countSql b.dialect = .ok count) :
    (first b q).Fetches [count, sql] List.head? := by
  have hfirst : first b q = List.head? <$> select b q.single := by
    rw [map_eq_pure_bind]
    rfl
  rw [hfirst]
  exact (select_fetches_counted rfl hsql hcount).map List.head?

/-- The count that goes with a selection ranges over what the selection does. If the selection can
be built, then so can the count, and the two have one source, which depends on the table, the joins
and the filter of the query only. A limited selection sends the count and then itself, any other one
itself alone, until one of them fails, and gives the rows that the engine replied to the selection.
The selections of the first row do so under a limit of one row, and give the first of these rows. -/
theorem selection_with_companion {q : Query} {d : Dialect} {sql : String}
    (hsql : q.selectSql d = .ok sql) :
    ∃ source one, q.SelectsFrom source sql ∧ q.single.selectSql d = .ok one ∧
      (∀ q', q.RangesAs q' → q'.countSql d = .ok (Query.countText source) ∧
        ∀ sql', q'.selectSql d = .ok sql' → q'.SelectsFrom source sql') ∧
      ∀ {σ : Type} (b : Backend σ), b.dialect = d →
        (q.limit = none → (select b q).Fetches [sql] id) ∧
        (∀ limit, q.limit = some limit → (select b q).Fetches [Query.countText source, sql] id) ∧
        (first b q).Fetches [Query.countText source, one] List.head? ∧
        ∀ table columns filter, q = { table, columns, filter } →
          (get b table columns filter).Fetches [Query.countText source, one] List.head? := by
  obtain ⟨source, hsource, hselects⟩ := Query.select_sql_ok_iff.mp hsql
  obtain ⟨one, hone, -⟩ := (Query.single_select_corresponds q d).exists_ok hsql
  have hcount : ∀ q', q.RangesAs q' → q'.countSql d = .ok (Query.countText source) :=
    fun q' hranges => Query.count_sql_ok_iff.mpr ⟨source, hranges.source_eq d ▸ hsource, rfl⟩
  have hfrom : ∀ q', q.RangesAs q' → ∀ sql', q'.selectSql d = .ok sql' →
      q'.SelectsFrom source sql' := by
    intro q' hranges sql' hsql'
    obtain ⟨source', hsource', hselects'⟩ := Query.select_sql_ok_iff.mp hsql'
    rw [hranges.source_eq d, hsource] at hsource'
    cases hsource'
    exact hselects'
  refine ⟨source, one, hselects, hone, fun q' hranges => ⟨hcount q' hranges, hfrom q' hranges⟩, ?_⟩
  rintro σ b rfl
  have hfirst := first_fetches hone (hcount _ (.single q))
  refine ⟨fun hlimit => select_fetches hlimit hsql,
    fun limit hlimit => select_fetches_counted hlimit hsql (hcount q ⟨rfl, rfl, rfl⟩), hfirst, ?_⟩
  rintro table columns filter rfl
  exact hfirst

/-- The third page of posts with their authors. -/
def thirdPage : Query where
  table := "posts"
  columns := ["posts.title", "users.name AS author"]
  joins := [⟨"users", [("users.id", "posts.user_id")]⟩]
  filter := ⟨[("posts.status", .one (.text "out")), ("OR", .group [("age[>]", .one (.int 17)),
    ("posts.tag", .anyOf [.text "a", .text "b"])])]⟩
  orderBy := some [("posts.title", .asc)]
  limit := some (.range 20 10)

/-- What both the page and its count range over. -/
def thirdPageSource : String :=
  "posts INNER JOIN users ON users.id=posts.user_id WHERE posts.status = 'out' AND " ++
    "( age > 17 OR ( posts.tag = 'a' OR posts.tag = 'b' ) )"

/-- The posts are counted over the same joins and filter, before the page and before the first
post alone. -/
theorem third_page_counted :
    thirdPage.selectSql .mysql = .ok ("SELECT posts.title, users.name AS 'author' FROM " ++
      thirdPageSource ++ " ORDER BY posts.title ASC LIMIT 20, 10") ∧
    thirdPage.countSql .mysql = .ok (Query.countText thirdPageSource) ∧
    (select (Script.backend .mysql) thirdPage).Fetches [Query.countText thirdPageSource,
      "SELECT posts.title, users.name AS 'author' FROM " ++ thirdPageSource ++
        " ORDER BY posts.title ASC LIMIT 20, 10"] id ∧
    (first (Script.backend .mysql) thirdPage).Fetches [Query.countText thirdPageSource,
      "SELECT posts.title, users.name AS 'author' FROM " ++ thirdPageSource ++
        " ORDER BY posts.title ASC LIMIT 1"] List.head? := by
  have hsql : thirdPage.selectSql .mysql = .ok ("SELECT posts.title, users.name AS 'author' FROM "
      ++ thirdPageSource ++ " ORDER BY posts.title ASC LIMIT 20, 10") := by decide +kernel
  have hcount : thirdPage.countSql .mysql = .ok (Query.countText thirdPageSource) := by
    decide +kernel
  have hone : thirdPage.single.selectSql .mysql = .ok
      ("SELECT posts.title, users.name AS 'author' FROM " ++ thirdPageSource ++
        " ORDER BY posts.title ASC LIMIT 1") := by decide +kernel
  obtain ⟨source, one, -, hsingle, hcounted, hsent⟩ := selection_with_companion hsql
  have hsource := Except.ok.inj (hcount.symm.trans (hcounted thirdPage ⟨rfl, rfl, rfl⟩).1)
  cases hone.symm.trans hsingle
  obtain ⟨-, hselect, hfirst, -⟩ := hsent (Script.backend .mysql) rfl
  rw [← hsource] at hselect hfirst
  exact ⟨hsql, hcount, hselect _ rfl, hfirst⟩

end Session

end SchemaKeeper

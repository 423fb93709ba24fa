import SchemaKeeper.Engine.Script
import SchemaKeeper.Proofs.Session.Conduct
import SchemaKeeper.Proofs.Statement.Insertion

/-!
# What insertions send

The insertion of a row sends one statement, if it can be built and there is a connection to send it
over, and gives the id of the row. Whether the statement says of this id what it should hangs on the
names of the columns: `Session.insertion_identified`. The id is looked for under the name `id`, and
columns are told apart by the names that were given, but the statement has the cleaned ones.
-/

namespace SchemaKeeper

variable {σ : Type} {b : Backend σ}

namespace Session

open Identifier

/-- A command is sent at most once, and it is if it succeeds. -/
theorem execute_sends (b : Backend σ) (command : Command) :
    (execute b command).Shows fun result events =>
      (∀ count, result = .ok count → Event.commands events = [command]) ∧
        ∀ sent ∈ Event.commands events, sent = command := by
  refine (execute_shows b command).mono fun result events h => ?_
  cases h with
  | done before count hrecords hcommands =>
      rw [Event.commands_append, hcommands]
      exact ⟨fun _ _ => rfl, fun sent hsent => List.mem_singleton.mp hsent⟩
  | failed before e hrecords hcommands =>
      rw [Event.commands_append, hcommands]
      exact ⟨nofun, fun sent hsent => List.mem_singleton.mp hsent⟩
  | unsent events e hrecords hcommands =>
      rw [hcommands]
      exact ⟨nofun, List.forall_mem_nil _⟩

/-- An insertion can be built just if its parts can. -/
theorem insert_sql_ok_iff {table sql : String} {values : Assignments} {d : Dialect} :
    insertSql table values d = .ok sql ↔
      ∃ i, Insertion.ofAssignments table values d = .ok i ∧ sql = i.text := by
  unfold insertSql
  rw [except_bind_ok_iff]
  constructor
  · rintro ⟨i, hi, hend⟩
    cases hend
    exact ⟨i, hi, rfl⟩
  · rintro ⟨i, hi, rfl⟩
    exact ⟨i, hi, rfl⟩

/-- The insertion of a row gives its id if its statement succeeds, and whatever it sends assigns the
values of the row and this id. The id is the value that was given under the name `id`, and the fresh
one without such a value. So the statement has distinct columns, the column `id` once, and the id in
its place, just if cleaning does not give two columns of the row one name. -/
theorem insertion_identified (b : Backend σ) (table fresh : String) {values : Assignments}
    (hvalues : values.columns.Nodup) :
    (insert b table values fresh).Shows (fun result events =>
      (∀ id, result = .ok id → id = (values.idOr fresh).display ∧
        ∃ command, Event.commands events = [command]) ∧
      ∀ command ∈ Event.commands events, ∃ i : Insertion, command = .text i.text ∧
        i.Assigns b.dialect table values (values.idOr fresh)) ∧
    ("id" ∉ values.columns.map cleaned → values.idOr fresh = .text fresh) := by
  constructor
  · refine Shows.built_bind (fun e _ => ⟨nofun, List.forall_mem_nil _⟩) fun sql hsql => ?_
    obtain ⟨i, hi, rfl⟩ := insert_sql_ok_iff.mp hsql
    have hassigns := Insertion.assigns_of_ok hvalues hi
    refine (execute_sends b (.text i.text)).map _ (fun e events hsent => ?_) ?_
    · exact ⟨nofun, fun command hcommand => ⟨i, hsent.2 command hcommand, hassigns⟩⟩
    · rintro count events ⟨hone, hsent⟩
      refine ⟨fun id hid => ?_, fun command hcommand => ⟨i, hsent command hcommand, hassigns⟩⟩
      cases hid
      exact ⟨with_id_fst, _, hone count rfl⟩
  · intro hnone
    have hget : values.get? "id" = none := by
      refine Assignments.get_none_iff.mpr fun hid => hnone ?_
      rw [← cleaned_id]
      exact List.mem_map_of_mem hid
    rw [Assignments.idOr, hget, Option.getD_none]

/-- A row with its own id. -/
def namedRow : Assignments := .ofList [("id", .text "a-1"), ("name", .text "Ann"), ("age", .int 17)]

/-- The row is inserted under its id. -/
theorem named_row_inserted :
    (insert (Script.backend .sqlite) "users" namedRow "fresh").Shows fun result events =>
      (∀ id, result = .ok id → id = "a-1" ∧ ∃ command, Event.commands events = [command]) ∧
        ∀ command ∈ Event.commands events, ∃ i : Insertion, command = .text i.text ∧
          i.columns = ["id", "name", "age"] ∧ i.Identifies .sqlite (.text "a-1") := by
  have hclean : ∀ column ∈ namedRow.columns, IsClean column := by decide +kernel
  have hinserted := (insertion_identified (Script.backend .sqlite) "users" "fresh"
    (Assignments.nodup_of_list [("id", .text "a-1"), ("name", .text "Ann"), ("age", .int 17)])).1
  refine hinserted.mono fun result events ⟨hresult, hsent⟩ => ⟨hresult, fun command hcommand => ?_⟩
  obtain ⟨i, htext, hassigns⟩ := hsent command hcommand
  exact ⟨i, htext, hassigns.columns.trans (by decide +kernel),
    hassigns.identifies.mpr (hassigns.clean hclean)⟩

/-- A row with an id, and with a column that is cleaned to `id` as well. -/
def blurredRow : Assignments := .ofList [("id", .text "x"), ("i d", .text "y")]

/-- A handle that has the settings and no connection yet. -/
def idleHandle : Handle Script :=
  .start (some ⟨"localhost", none, "user", "password", "db"⟩) [] {}

/-- An insertion need not have distinct columns. This row is accepted, its columns are distinct, and
the column `id` is named twice, with two literals, of which the second is not that of the id that
the insertion gives. -/
theorem blurred_row_inserted : blurredRow.columns.Nodup ∧
    ((insert (Script.backend .sqlite) "t" blurredRow "fresh").run idleHandle).1 = .ok "x" ∧
    Event.commands ((insert (Script.backend .sqlite) "t" blurredRow "fresh").trace idleHandle) =
      [.text "INSERT INTO t (id, id) VALUES ('x', 'y')"] ∧
    ∃ i : Insertion, i.text = "INSERT INTO t (id, id) VALUES ('x', 'y')" ∧
      Insertion.ofAssignments "t" (withId blurredRow "fresh").2 .sqlite = .ok i ∧
      ¬ i.columns.Nodup ∧ i.columns.count "id" = 2 ∧
      ("id", Dialect.sqlite.literal (.text "y")) ∈ i.columns.zip i.literals := by
  refine ⟨Assignments.nodup_of_list _, by decide +kernel, by decide +kernel, ?_⟩
  exact ⟨⟨"t", ["id", "id"], ["'x'", "'y'"]⟩, by decide +kernel⟩

end Session

end SchemaKeeper

import SchemaKeeper.Proofs.Session.Faithful

/-!
# Exact engines and two runs side by side

An exact engine carries every change out to the letter: `Dialect.carry` says what becomes of the
columns of a table, the reserved ones included, in which order they stand and what their indexes are
called. `Session.Foretells` compares two sessions of which the first one leaves its engine alone,
under all answers that exact engines give to them; `Session.Foretells.bind` composes it along
sessions in a row.
-/

namespace SchemaKeeper

open Synchronization

namespace Structure

/-- The columns that are not reserved. -/
def userPart (columns : List LiveColumn) : List LiveColumn :=
  columns.filter fun c => !Identifier.isReserved c.name

/-- A structure without the reserved columns. -/
def users (s : Structure) : Structure := fun table => (s table).map userPart

/-- The columns of a table when it is created. -/
def reservedPart : List LiveColumn :=
  let now : Option Scalar := some (.text "CURRENT_TIMESTAMP")
  [ ⟨.ofType "id" "VARCHAR(36)" false none .none, none⟩,
    ⟨.ofType "created_at" "TIMESTAMP" true now .none, none⟩,
    ⟨.ofType "updated_at" "TIMESTAMP" true now .none, none⟩ ]

theorem users_only (table : String) (columns : List LiveColumn) :
    (only table columns).users = only table (userPart columns) := by
  funext other
  unfold users only
  split <;> rfl

theorem users_eq {s : Structure} {table : String} {columns : List LiveColumn}
    (h : s table = some columns) : s.users table = some (userPart columns) := by
  rw [users, h, Option.map_some]

end Structure

namespace Dialect

/-- What a change makes of the columns of its table. MySQL puts a new column where the statement
says and redefines a column in place. SQLite puts a new column last; for a new definition it makes
the table anew of the listed columns, and their indexes are then called what the statements call
them. -/
def carry (d : Dialect) : Change → List LiveColumn → List LiveColumn
  | .createTable _, _ => Structure.reservedPart
  | .addColumn t c after, columns =>
    match d with
    | .mysql => insertAfter after (added d t c) columns
    | .sqlite => columns ++ [added d t c]
  | .modifyColumn t c listed, columns =>
    match d with
    | .mysql =>
      replaceFirst c.name (fun old => { old with spec := { c with index := old.spec.index } })
        columns
    | .sqlite => Structure.reservedPart ++ listed.map (added d t)
  | .dropColumn _ name _, columns => columns.filter fun c => c.name ≠ name
  | .addIndex t name kind, columns =>
    replaceFirst name
      (fun c => ⟨{ c.spec with index := kind }, some (d.indexName t name)⟩) columns
  | .dropIndex _ name _, columns =>
    replaceFirst name (fun c => ⟨{ c.spec with index := .none }, none⟩) columns

/-- The structure after a change; other tables stay as they are. -/
def carryOut (d : Dialect) (change : Change) (s : Structure) : Structure := fun table =>
  if table = change.table then some (d.carry change ((s change.table).getD [])) else s table

theorem carry_out_self {d : Dialect} {change : Change} {s : Structure} {columns : List LiveColumn}
    (h : s change.table = some columns) :
    d.carryOut change s change.table = some (d.carry change columns) := by
  rw [carryOut, if_pos rfl, h, Option.getD_some]

/-- Where there is but one table, a change to it makes another structure of the same table. -/
theorem carry_out_only {d : Dialect} {change : Change} {table : String}
    (htable : change.table = table) (columns : List LiveColumn) :
    d.carryOut change (.only table columns) = .only table (d.carry change columns) := by
  subst htable
  funext other
  unfold carryOut
  rw [Structure.only_self, Option.getD_some]
  unfold Structure.only
  split <;> rfl

theorem carry_out_other {d : Dialect} {change : Change} {s : Structure} {table : String}
    (h : table ≠ change.table) : d.carryOut change s table = s table :=
  if_neg h

end Dialect

variable {σ α β : Type}

/-- The events are those of an engine that has the first structure, answers from it and carries out
to the letter what is recorded as applied, so that it has the second structure in the end. -/
inductive Backend.Complies (b : Backend σ) : Structure → List Event → Structure → Prop where
  | nil (s : Structure) : b.Complies s [] s
  | still {s s' : Structure} {event : Event} {rest : List Event}
      (hevent : ∀ record, event = .recorded record → record.outcome ≠ .applied)
      (hstep : b.Step s.users event s.users) (hrest : b.Complies s rest s') :
      b.Complies s (event :: rest) s'
  | changed {s s' : Structure} {record : ChangeRecord} {rest : List Event}
      (happlied : record.outcome = .applied)
      (hrest : b.Complies (b.dialect.carryOut record.change s) rest s') :
      b.Complies s (.recorded record :: rest) s'

namespace Backend.Complies

variable {b : Backend σ} {s s' : Structure}

/-- Events in a row are gone through part by part. -/
theorem append_iff {first second : List Event} :
    b.Complies s (first ++ second) s' ↔
      ∃ mid, b.Complies s first mid ∧ b.Complies mid second s' := by
  induction first generalizing s with
  | nil =>
      constructor
      · intro h
        exact ⟨s, .nil s, h⟩
      · rintro ⟨mid, _ | _, h⟩
        exact h
  | cons event rest ih =>
      constructor
      · rintro (_ | ⟨hevent, hstep, hrest⟩ | ⟨happlied, hrest⟩)
        all_goals obtain ⟨mid, hfirst, hsecond⟩ := ih.mp hrest
        · exact ⟨mid, .still hevent hstep hfirst, hsecond⟩
        · exact ⟨mid, .changed happlied hfirst, hsecond⟩
      · rintro ⟨mid, _ | ⟨hevent, hstep, hfirst⟩ | ⟨happlied, hfirst⟩, hsecond⟩
        · exact .still hevent hstep (ih.mpr ⟨mid, hfirst, hsecond⟩)
        · exact .changed happlied (ih.mpr ⟨mid, hfirst, hsecond⟩)

/-- Where nothing is recorded the structure stays, and the engine is faithful to it. -/
theorem of_unrecorded {events : List Event} (hrecords : Event.records events = [])
    (h : b.Complies s events s') : s' = s ∧ b.Replays s.users events s.users := by
  induction h with
  | nil s => exact ⟨rfl, .nil _⟩
  | @still _ _ event rest _ hstep _ ih =>
      have hrest : Event.records rest = [] := by
        rw [← List.singleton_append, Event.records_append, List.append_eq_nil_iff] at hrecords
        exact hrecords.2
      obtain ⟨rfl, hreplays⟩ := ih hrest
      exact ⟨rfl, .cons hstep hreplays⟩
  | changed => cases hrecords

/-- Of two sessions in a row the first one has the first part of the events, and the second one, if
there is one, has the rest. -/
theorem bind {op : Session σ α} {f : α → Session σ β} [Session.Grows op]
    [∀ a, Session.Grows (f a)] {db : Handle σ} (h : b.Complies s ((op >>= f).trace db) s') :
    ∃ mid, b.Complies s (op.trace db) mid ∧
      ∀ a, (op.run db).1 = .ok a → b.Complies mid ((f a).trace (op.run db).2) s' := by
  rcases hrun : (op.run db).1 with e | a
  · rw [Session.trace_bind_error hrun] at h
    exact ⟨s', h, fun a ha => nomatch ha⟩
  · rw [Session.trace_bind hrun] at h
    obtain ⟨mid, hfirst, hsecond⟩ := append_iff.mp h
    refine ⟨mid, hfirst, fun a' ha' => ?_⟩
    cases ha'
    exact hsecond

end Backend.Complies

namespace Session

/-- Whenever the engines are exact, both sessions succeed, the first one leaves its structure as it
is, and the two results and the structure that the second one leaves are as stated. -/
def Foretells (b : Backend σ) (s t : Structure) (op op' : Session σ α)
    (post : α → α → Structure → Prop) : Prop :=
  ∀ db db' s' t', db.CanConnect → db'.CanConnect → b.Complies s (op.trace db) s' →
    b.Complies t (op'.trace db') t' →
    ∃ a a', ((op.run db).1 = .ok a ∧ (op.run db).2.CanConnect ∧ s' = s) ∧
      ((op'.run db').1 = .ok a' ∧ (op'.run db').2.CanConnect) ∧ post a a' t'

variable {b : Backend σ} {s t : Structure} {op op' : Session σ α}
  {post : α → α → Structure → Prop}

namespace Foretells

theorem mono {post' : α → α → Structure → Prop} (h : Foretells b s t op op' post)
    (hpost : ∀ a a' t', post a a' t' → post' a a' t') : Foretells b s t op op' post' := by
  intro db db' s' t' hready hready' hs ht
  obtain ⟨a, a', hfirst, hsecond, ha⟩ := h db db' s' t' hready hready' hs ht
  exact ⟨a, a', hfirst, hsecond, hpost a a' t' ha⟩

protected theorem pure {a a' : α} (h : post a a' t) : Foretells b s t (pure a) (pure a') post := by
  intro db db' s' t' hready hready' hs ht
  rw [trace_pure] at hs ht
  cases hs
  cases ht
  exact ⟨a, a', ⟨rfl, hready, rfl⟩, ⟨rfl, hready'⟩, h⟩

/-- What two sessions lead to is what the next two start from. -/
protected theorem bind {f f' : α → Session σ β} [Grows op] [Grows op'] [∀ a, Grows (f a)]
    [∀ a, Grows (f' a)] {post' : β → β → Structure → Prop} (hop : Foretells b s t op op' post)
    (hf : ∀ a a' mid, post a a' mid → Foretells b s mid (f a) (f' a') post') :
    Foretells b s t (op >>= f) (op' >>= f') post' := by
  intro db db' s' t' hready hready' hs ht
  obtain ⟨mid, hs, hs'⟩ := hs.bind
  obtain ⟨mid', ht, ht'⟩ := ht.bind
  obtain ⟨a, a', ⟨ha, hready, hmid⟩, ⟨ha', hready'⟩, hpost⟩ :=
    hop db db' mid mid' hready hready' hs ht
  subst hmid
  rw [run_bind_of_ok ha, run_bind_of_ok ha']
  exact hf a a' mid' hpost _ _ s' t' hready hready' (hs' a ha) (ht' a' ha')

/-- What can be built is passed on. -/
theorem built_bind {r : Except BuildError α} {f f' : α → Session σ β} {a : α}
    {post : β → β → Structure → Prop} (hr : r = .ok a) (h : Foretells b s t (f a) (f' a) post) :
    Foretells b s t (Session.built r >>= f) (Session.built r >>= f') post := by
  subst hr
  exact h

/-- Two sessions that record nothing show what their engines have, which stays as it is. -/
theorem of_yields {first second : α → Structure → Prop} (hop : Yields b s.users op first)
    (hop' : Yields b t.users op' second) (hrecords : ∀ db, Event.records (op.trace db) = [])
    (hrecords' : ∀ db, Event.records (op'.trace db) = []) :
    Foretells b s t op op' fun a a' t' => t' = t ∧ first a s.users ∧ second a' t.users := by
  intro db db' s' t' hready hready' hs ht
  obtain ⟨rfl, hs⟩ := hs.of_unrecorded (hrecords db)
  obtain ⟨rfl, ht⟩ := ht.of_unrecorded (hrecords' db')
  obtain ⟨a, ha, hready, hfirst⟩ := hop db _ hready hs
  obtain ⟨a', ha', hready', hsecond⟩ := hop' db' _ hready' ht
  exact ⟨a, a', ⟨ha, hready, rfl⟩, ⟨ha', hready'⟩, rfl, hfirst, hsecond⟩

/-- The first record is not one of an applied change; the second one may be. -/
theorem note {record record' : ChangeRecord} (hrecord : record.outcome ≠ .applied) :
    Foretells b s t (Session.note record) (Session.note record') fun _ _ t' =>
      t' = if record'.outcome = .applied then b.dialect.carryOut record'.change t else t := by
  intro db db' s' t' hready hready' hs ht
  have htrace : ∀ (r : ChangeRecord) (db : Handle σ),
      (Session.note r : Session σ Unit).trace db = [.recorded r] := fun _ _ => trace_eq rfl
  rw [htrace] at hs ht
  refine ⟨(), (), ⟨rfl, hready, ?_⟩, ⟨rfl, hready'⟩, ?_⟩
  · cases hs with
    | still _ _ hrest =>
        cases hrest
        rfl
    | changed happlied => exact absurd happlied hrecord
  · cases ht with
    | still hevent _ hrest =>
        cases hrest
        rw [if_neg (hevent record' rfl)]
    | changed happlied hrest =>
        cases hrest
        rw [if_pos happlied]

end Foretells

end Session

end SchemaKeeper

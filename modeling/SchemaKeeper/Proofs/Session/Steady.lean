import SchemaKeeper.Proofs.Session.Faithful

/-!
# Steady engines

A faithful engine may put the columns of a changed table in any order and give their indexes other
names. A steady one also leaves alone what a change does not touch: the other columns stay as they
are and in order. Only a new definition, for which an engine may rebuild the table, counts as
touching all columns. `Backend.ReplaysSteadily.kept` follows columns that no change touches through
a session.
-/

namespace SchemaKeeper

/-- The user columns of a table; a missing table has none. -/
def Structure.columns (s : Structure) (table : String) : List LiveColumn := (s table).getD []

namespace Change

/-- The change may make something else of a column of the name in its table. -/
def touches : Change → String → Bool
  | .addColumn _ column _, name => column.name = name
  | .addIndex _ column _, name | .dropIndex _ column _, name | .dropColumn _ column _, name =>
    column = name
  | .createTable _, _ | .modifyColumn .., _ => true

/-- The columns of the table that the change does not touch stay as they are and in order. -/
def Steady (change : Change) (s s' : Structure) : Prop :=
  ((s.columns change.table).filter fun c => !change.touches c.name).Sublist
    (s'.columns change.table)

instance (change : Change) (s s' : Structure) : Decidable (change.Steady s s') :=
  inferInstanceAs (Decidable (List.Sublist _ _))

end Change

variable {σ : Type} {b : Backend σ} {s mid s' : Structure} {events first second : List Event}

/-- The events are those of an engine that is faithful and steady. -/
inductive Backend.ReplaysSteadily (b : Backend σ) : Structure → List Event → Structure → Prop where
  | nil (s : Structure) : b.ReplaysSteadily s [] s
  | cons {s mid s' : Structure} {event : Event} {rest : List Event} (hstep : b.Step s event mid)
      (hsteady : ∀ record, event = .recorded record → record.outcome = .applied →
        record.change.Steady s mid)
      (hrest : b.ReplaysSteadily mid rest s') : b.ReplaysSteadily s (event :: rest) s'

namespace Backend.ReplaysSteadily

theorem replays (h : b.ReplaysSteadily s events s') : b.Replays s events s' := by
  induction h with
  | nil s => exact .nil s
  | cons hstep _ _ ih => exact .cons hstep ih

/-- Where no change is applied there is no occasion to be unsteady. -/
theorem of_replays (h : b.Replays s events s')
    (hunapplied : ∀ record, .recorded record ∈ events → record.outcome ≠ .applied) :
    b.ReplaysSteadily s events s' := by
  induction h with
  | nil s => exact .nil s
  | cons hstep _ ih =>
      refine .cons hstep (fun record hrecord happlied => ?_)
        (ih fun record hrecord => hunapplied record (List.mem_cons_of_mem _ hrecord))
      exact absurd happlied (hunapplied record (hrecord ▸ List.mem_cons_self))

theorem append (hfirst : b.ReplaysSteadily s first mid)
    (hsecond : b.ReplaysSteadily mid second s') : b.ReplaysSteadily s (first ++ second) s' := by
  induction hfirst with
  | nil => exact hsecond
  | cons hstep hsteady _ ih => exact .cons hstep hsteady (ih hsecond)

/-- Columns of a table that no applied change touches are still there in the end, in order. -/
theorem kept {table : String} {columns : List LiveColumn} (h : b.ReplaysSteadily s events s')
    (hcolumns : columns.Sublist (s.columns table))
    (huntouched : ∀ record, .recorded record ∈ events → record.outcome = .applied →
      record.change.table = table → ∀ c ∈ columns, record.change.touches c.name = false) :
    columns.Sublist (s'.columns table) := by
  induction h with
  | nil s => exact hcolumns
  | cons hstep hsteady _ ih =>
      refine ih ?_ fun record hrecord => huntouched record (List.mem_cons_of_mem _ hrecord)
      cases hstep with
      | connected | executed | listed | described | attempted | unapplied => exact hcolumns
      | applied _ record happlied heffect =>
          by_cases htable : record.change.table = table
          · subst htable
            have hsame : columns.filter (fun c => !record.change.touches c.name) = columns := by
              refine List.filter_eq_self.mpr fun c hc => ?_
              rw [huntouched record List.mem_cons_self happlied rfl c hc]
              rfl
            rw [← hsame]
            exact (hcolumns.filter _).trans (hsteady record rfl happlied)
          · rw [Structure.columns, heffect.others table (Ne.symm htable)]
            exact hcolumns

end Backend.ReplaysSteadily

end SchemaKeeper

import SchemaKeeper.Proofs.Schema.Grammar
import SchemaKeeper.Proofs.Statement.ColumnValues
import SchemaKeeper.Session.Rows

/-!
# The columns of an insertion

Column values have each column once however they are put together, as `Assignments.records_of_edits`
says, and an insertion has them all, with the id in front if it is not among them. But an insertion
goes by cleaned names, and cleaning may make one name of two: `Identifier.Blurs`.
`Insertion.Assigns` says what this does to the columns of an insertion and to the place of its id.
-/

namespace SchemaKeeper

namespace Identifier

/-- A name is there once after cleaning just if no other one is cleaned to it. -/
theorem count_cleaned_eq_one_iff {raws : List String} (h : raws.Nodup) {raw : String}
    (hraw : raw ∈ raws) : (raws.map cleaned).count (cleaned raw) = 1 ↔
      ∀ other ∈ raws, cleaned other = cleaned raw → other = raw := by
  obtain ⟨before, after, rfl⟩ := List.append_of_mem hraw
  have hothers : ∀ other ∈ before ++ after, other ≠ raw := by
    rintro _ hother rfl
    exact (List.nodup_middle.mp h).notMem hother
  have hcount : ((before ++ raw :: after).map cleaned).count (cleaned raw) =
      ((before ++ after).map cleaned).count (cleaned raw) + 1 := by
    simp only [List.map_append, List.map_cons, List.count_append, List.count_cons_self]
    exact (Nat.add_assoc _ _ _).symm
  rw [hcount, Nat.add_eq_right, List.count_eq_zero, List.mem_map]
  constructor
  · intro hnone other hother heq
    by_contra hne
    refine hnone ⟨other, ?_, heq⟩
    simpa [hne] using hother
  · rintro hself ⟨other, hother, heq⟩
    refine hothers other hother (hself other ?_ heq)
    exact List.perm_middle.mem_iff.mpr (List.mem_cons_of_mem _ hother)

theorem cleaned_id : cleaned "id" = "id" := by decide +kernel

end Identifier

open Identifier

namespace Assignments

variable {values : Assignments} {column : String}

/-- The value that a new row has for its id. -/
def idOr (values : Assignments) (fresh : String) : Scalar :=
  (values.get? "id").getD (.text fresh)

/-- The columns that a new row has values for. -/
def rowColumns (values : Assignments) : List String :=
  if "id" ∈ values.columns then values.columns else "id" :: values.columns

theorem mem_row_columns : column ∈ values.rowColumns ↔ column = "id" ∨ column ∈ values.columns := by
  unfold rowColumns
  split
  · next h => exact ⟨.inr, fun hcolumn => hcolumn.elim (fun heq => heq ▸ h) id⟩
  · exact List.mem_cons

theorem nodup_row_columns (h : values.columns.Nodup) : values.rowColumns.Nodup := by
  unfold rowColumns
  split
  · exact h
  · next hid => exact List.nodup_cons.mpr ⟨hid, h⟩

end Assignments

namespace Session

variable {values : Assignments} {fresh : String}

/-- The id of a new row is shown as the value that the row has for it. -/
theorem with_id_fst : (withId values fresh).1 = (values.idOr fresh).display := by
  unfold withId Assignments.idOr
  cases values.get? "id" <;> rfl

/-- The id stands in front if it is not among the values. -/
theorem with_id_columns : (withId values fresh).2.columns = values.rowColumns := by
  unfold withId Assignments.rowColumns
  cases hget : values.get? "id" with
  | some id =>
      have hmem : "id" ∈ values.columns :=
        List.mem_map_of_mem (f := Prod.fst) (Assignments.mem_of_get hget)
      rw [if_pos hmem]
  | none =>
      have hnot := Assignments.get_none_iff.mp hget
      rw [if_neg hnot]
      unfold Assignments.prepend Assignments.columns
      rw [Assignments.filter_absent hnot, List.map_cons]

theorem mem_with_id : ("id", values.idOr fresh) ∈ (withId values fresh).2.entries := by
  unfold withId Assignments.idOr
  cases hget : values.get? "id" with
  | some id => exact Assignments.mem_of_get hget
  | none => exact List.mem_cons_self

/-- If nothing is blurred, then only the id of the row has a name that is cleaned to `id`. -/
theorem id_of_cleaned (hvalues : values.columns.Nodup) (hblurs : ¬ Blurs values.rowColumns)
    {column : String} {value : Scalar} (h : (column, value) ∈ (withId values fresh).2.entries)
    (hcleaned : cleaned column = "id") : value = values.idOr fresh := by
  have hrow : (withId values fresh).2.columns = values.rowColumns := with_id_columns
  have hcolumn : column ∈ values.rowColumns := hrow ▸ List.mem_map_of_mem (f := Prod.fst) h
  have hid : "id" ∈ values.rowColumns := Assignments.mem_row_columns.mpr (.inl rfl)
  have hsame : column = "id" := by
    by_contra hne
    exact hblurs ⟨column, hcolumn, "id", hid, hne, hcleaned.trans cleaned_id.symm⟩
  subst hsame
  exact Assignments.value_unique (hrow ▸ Assignments.nodup_row_columns hvalues) h mem_with_id

end Session

namespace Insertion

/-- The insertion has no column twice, has the column `id`, and gives it this value. -/
structure Identifies (d : Dialect) (id : Scalar) (i : Insertion) : Prop where
  distinct : i.columns.Nodup
  once : i.columns.count "id" = 1
  literal : ∀ literal, ("id", literal) ∈ i.columns.zip i.literals ↔ literal = d.literal id

/-- The insertion assigns the values of a new row. Its columns are distinct just if cleaning does
not blur those of the row, and then it gives the row its id, and once. It names the column `id` once
just if no other column is cleaned to it. Columns that are clean already are not blurred. -/
structure Assigns (d : Dialect) (table : String) (values : Assignments) (id : Scalar)
    (i : Insertion) : Prop where
  table : sanitize table = .ok i.table
  columns : i.columns = values.rowColumns.map cleaned
  identifies : i.Identifies d id ↔ ¬ Blurs values.rowColumns
  distinct : i.columns.Nodup ↔ ¬ Blurs values.rowColumns
  once : i.columns.count "id" = 1 ↔
    ∀ column ∈ values.columns, cleaned column = "id" → column = "id"
  clean : (∀ column ∈ values.columns, IsClean column) → ¬ Blurs values.rowColumns

variable {d : Dialect} {table : String} {values : Assignments} {i : Insertion}

/-- An insertion has the cleaned names and the literals of the values, in their order. -/
theorem of_assignments_ok (h : ofAssignments table values d = .ok i) :
    sanitize table = .ok i.table ∧ i.columns = values.columns.map cleaned ∧
      i.literals = values.entries.map fun e => d.literal e.2 := by
  unfold ofAssignments at h
  split at h
  · cases h
  · obtain ⟨columns, hcolumns, h⟩ := except_bind_ok_iff.mp h
    obtain ⟨name, hname, hend⟩ := except_bind_ok_iff.mp h
    cases hend
    refine ⟨hname, ?_, rfl⟩
    have hcleaned : values.entries.map (cleaned ∘ Prod.fst) = columns := by
      rw [← List.forall₂_eq_eq_eq, List.forall₂_map_left_iff]
      exact (map_m_ok_iff.mp hcolumns).imp fun e name h => (sanitize_ok_iff.mp h).2.symm
    exact hcleaned.symm.trans List.map_map.symm

/-- A literal stands at the place of a column just if it is that of a value whose name is cleaned to
this column. -/
theorem mem_zip_iff (h : ofAssignments table values d = .ok i) {column literal : String} :
    (column, literal) ∈ i.columns.zip i.literals ↔
      ∃ entry ∈ values.entries, cleaned entry.1 = column ∧ d.literal entry.2 = literal := by
  obtain ⟨-, hcolumns, hliterals⟩ := of_assignments_ok h
  rw [hcolumns, hliterals, Assignments.columns, List.map_map, List.zip_map', List.mem_map]
  simp only [Function.comp_apply, Prod.mk.injEq]

/-- The insertion of a row assigns its values and its id. -/
theorem assigns_of_ok (hvalues : values.columns.Nodup) {fresh : String}
    (h : ofAssignments table (Session.withId values fresh).2 d = .ok i) :
    i.Assigns d table values (values.idOr fresh) := by
  obtain ⟨htable, hcolumns, -⟩ := of_assignments_ok h
  rw [Session.with_id_columns] at hcolumns
  have hnodup := Assignments.nodup_row_columns hvalues
  have hid : "id" ∈ values.rowColumns := Assignments.mem_row_columns.mpr (.inl rfl)
  have hdistinct : i.columns.Nodup ↔ ¬ Blurs values.rowColumns := by
    rw [hcolumns]
    exact nodup_cleaned_iff hnodup
  have honce : i.columns.count "id" = 1 ↔
      ∀ column ∈ values.rowColumns, cleaned column = "id" → column = "id" := by
    have hcount := count_cleaned_eq_one_iff hnodup hid
    rwa [cleaned_id, ← hcolumns] at hcount
  have hnamed : "id" ∈ i.columns := by
    rw [hcolumns, ← cleaned_id]
    exact List.mem_map_of_mem hid
  have hliteral : ¬ Blurs values.rowColumns → ∀ literal,
      ("id", literal) ∈ i.columns.zip i.literals ↔ literal = d.literal (values.idOr fresh) := by
    intro hblurs literal
    rw [mem_zip_iff h]
    constructor
    · rintro ⟨⟨column, value⟩, hentry, hcleaned, rfl⟩
      rw [Session.id_of_cleaned hvalues hblurs hentry hcleaned]
    · rintro rfl
      exact ⟨_, Session.mem_with_id, cleaned_id, rfl⟩
  exact {
    table := htable
    columns := hcolumns
    identifies := ⟨fun h => hdistinct.mp h.distinct, fun hblurs =>
      ⟨hdistinct.mpr hblurs, List.count_eq_one_of_mem (hdistinct.mpr hblurs) hnamed,
        hliteral hblurs⟩⟩
    distinct := hdistinct
    once := honce.trans <| by
      simp only [Assignments.mem_row_columns, forall_eq_or_imp, implies_true, true_and]
    clean := fun hclean => not_blurs_of_clean fun column hcolumn => by
      rcases Assignments.mem_row_columns.mp hcolumn with rfl | hcolumn
      · decide
      · exact hclean column hcolumn }

end Insertion

end SchemaKeeper

import SchemaKeeper.Proofs.Schema.Grammar
import SchemaKeeper.Proofs.Statement.Rows

/-!
# The count that goes with a selection

A selection and the count of its rows are written separately, and their parts are checked in
different orders. `Query.SelectsFrom` cuts the text of a selection into its select list, its source,
and what follows the source. The source is that of the count, `Query.select_sql_ok_iff` and
`Query.count_sql_ok_iff`, and other queries over the same rows have it too. A query that is cut down
to one row can be built if the query can, and fails as the query does otherwise.
-/

namespace SchemaKeeper

namespace Corresponds

variable {α β : Type} {R : α → β → Prop} {r : Except BuildError α} {r' : Except BuildError β}

theorem exists_ok {b : β} (h : Corresponds R r r') (hb : r' = .ok b) : ∃ a, r = .ok a ∧ R a b := by
  subst hb
  cases h with
  | ok hab => exact ⟨_, rfl, hab⟩

end Corresponds

namespace Query

open Identifier

variable {q q' : Query} {d : Dialect} {source sql : String}

/-- The second query ranges over the rows of the first one: it has the same table, joins and
filter. -/
structure RangesAs (q q' : Query) : Prop where
  table : q'.table = q.table
  joins : q'.joins = q.joins
  filter : q'.filter = q.filter

/-- The statement that counts the rows of a source. -/
def countText (source : String) : String := "SELECT COUNT(*) AS total FROM " ++ source

/-- The statement selects from the source: in front of it stands the select list of the query, and
behind it the query's groups, its order and its limit. -/
inductive SelectsFrom (q : Query) (source : String) : String → Prop where
  | intro {list group order : String} (hlist : selectList q.columns = .ok list)
      (hgroup : groupClause q.groupBy = .ok group)
      (horder : orderClause (q.orderBy.getD q.defaultOrder) = .ok order) :
      SelectsFrom q source
        ("SELECT " ++ list ++ " FROM " ++ source ++ group ++ order ++ Limit.clause q.limit)

/-- A source is a table with its joins and the clause of its filter. -/
theorem source_ok_iff : q.source d = .ok source ↔ ∃ table joins filter,
    sanitize q.table = .ok table ∧ joinClause q.joins = .ok joins ∧
      q.filter.whereClause d = .ok filter ∧ source = table ++ joins ++ filter := by
  unfold Query.source
  simp only [except_bind_ok_iff]
  constructor
  · rintro ⟨table, htable, joins, hjoins, filter, hfilter, hend⟩
    cases hend
    exact ⟨table, joins, filter, htable, hjoins, hfilter, rfl⟩
  · rintro ⟨table, joins, filter, htable, hjoins, hfilter, rfl⟩
    exact ⟨table, htable, joins, hjoins, filter, hfilter, rfl⟩

/-- A selection can be built just if its source and the parts around it can. -/
theorem select_sql_ok_iff :
    q.selectSql d = .ok sql ↔ ∃ source, q.source d = .ok source ∧ q.SelectsFrom source sql := by
  unfold selectSql
  simp only [except_bind_ok_iff]
  constructor
  · rintro ⟨table, htable, order, horder, list, hlist, joins, hjoins, filter, hfilter, group,
      hgroup, hend⟩
    cases hend
    refine ⟨_, source_ok_iff.mpr ⟨table, joins, filter, htable, hjoins, hfilter, rfl⟩, ?_⟩
    have hselects : q.SelectsFrom (table ++ joins ++ filter) _ := .intro hlist hgroup horder
    simpa only [String.append_assoc] using hselects
  · rintro ⟨source, hsource, hselects⟩
    obtain ⟨table, joins, filter, htable, hjoins, hfilter, rfl⟩ := source_ok_iff.mp hsource
    cases hselects with
    | @intro list group order hlist hgroup horder =>
        refine ⟨table, htable, order, horder, list, hlist, joins, hjoins, filter, hfilter, group,
          hgroup, ?_⟩
        simp only [String.append_assoc]
        rfl

/-- A count can be built just if its source can. -/
theorem count_sql_ok_iff :
    q.countSql d = .ok sql ↔ ∃ source, q.source d = .ok source ∧ sql = countText source := by
  unfold countSql
  rw [except_bind_ok_iff]
  refine exists_congr fun source => and_congr_right fun _ => ?_
  constructor
  · rintro ⟨⟩
    rfl
  · rintro rfl
    rfl

/-- Queries over the same rows have the same source. -/
theorem RangesAs.source_eq (h : q.RangesAs q') (d : Dialect) : q'.source d = q.source d := by
  unfold Query.source
  rw [h.table, h.joins, h.filter]

theorem RangesAs.single (q : Query) : q.RangesAs q.single := ⟨rfl, rfl, rfl⟩

/-- The default order names `id`, whatever the table is called. -/
theorem default_order_ok (q : Query) : ∃ order, orderClause q.defaultOrder = .ok order := by
  have hword : HasWordChar (if q.joins.isEmpty then "id" else q.table ++ ".id") := by
    refine ⟨'d', ?_, by decide⟩
    split <;> simp
  have hname := sanitize_ok_iff.mpr ⟨hword, rfl⟩
  have htext : ∃ text, orderText (if q.joins.isEmpty then "id" else q.table ++ ".id") .desc =
      .ok text := ⟨_, except_bind_ok_iff.mpr ⟨_, hname, rfl⟩⟩
  obtain ⟨text, htext⟩ := htext
  have hterms : q.defaultOrder.mapM (fun term => orderText term.1 term.2) = .ok [text] :=
    map_m_ok_iff.mpr (.cons htext .nil)
  exact ⟨_, except_bind_ok_iff.mpr ⟨_, hterms, rfl⟩⟩

/-- The order of a query for one row is the one that is given, or else there is none. Neither the
default order nor no order can fail. -/
theorem single_order_corresponds (q : Query) : Corresponds (fun _ _ => True)
    (orderClause (q.single.orderBy.getD q.single.defaultOrder))
    (orderClause (q.orderBy.getD q.defaultOrder)) := by
  cases horder : q.orderBy with
  | some order =>
      simp only [single, horder, Option.getD_some]
      exact (Corresponds.same _).mono fun _ _ _ => trivial
  | none =>
      obtain ⟨order, hdefault⟩ := default_order_ok q
      simp only [single, horder, Option.getD_some, Option.getD_none, hdefault]
      exact .ok trivial

/-- A query for one row can be built if the query can, and fails as it does otherwise. -/
theorem single_select_corresponds (q : Query) (d : Dialect) :
    Corresponds (fun _ _ => True) (q.single.selectSql d) (q.selectSql d) := by
  refine (Corresponds.same _).bind fun table _ _ => ?_
  refine (single_order_corresponds q).bind fun order _ _ => ?_
  refine (Corresponds.same _).bind fun list _ _ => (Corresponds.same _).bind fun joins _ _ => ?_
  refine (Corresponds.same _).bind fun filter _ _ => (Corresponds.same _).bind fun group _ _ => ?_
  exact .ok trivial

end Query

end SchemaKeeper

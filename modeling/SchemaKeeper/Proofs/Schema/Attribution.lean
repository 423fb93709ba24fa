import SchemaKeeper.Engine.ShowRows
import SchemaKeeper.Proofs.Schema.Grammar

/-!
# Attribution of indexes

A server reports an index with one row for each of its columns. A column gets the index of the first
row that names this column for a key without other rows. `ShowRows.FirstOn` is this row, and
`ShowRows.columns_attributed` says that each reported column has the name and the kind of its index,
or no name and the kind of its own flag. The order of the index rows matters only where a column has
several keys of its own.
-/

namespace SchemaKeeper

/-- Elements that satisfy a predicate are one element if it counts just one. -/
theorem eq_of_count_one {α : Type} {p : α → Bool} {items : List α} {a b : α}
    (hone : items.countP p = 1) (ha : a ∈ items) (hpa : p a = true) (hb : b ∈ items)
    (hpb : p b = true) : a = b := by
  rw [List.countP_eq_length_filter] at hone
  obtain ⟨c, hc⟩ := List.length_eq_one_iff.mp hone
  have hsame : ∀ d ∈ items, p d = true → d = c := fun d hd hpd =>
    List.mem_singleton.mp (hc ▸ List.mem_filter.mpr ⟨hd, hpd⟩)
  rw [hsame a ha hpa, hsame b hb hpb]

/-- Elements that agree in what they give are searched in any order. -/
theorem find_some_perm {α β : Type} {f : α → Option β} {items items' : List α}
    (hperm : items.Perm items')
    (hagree : ∀ a ∈ items, ∀ b ∈ items, ∀ x y, f a = some x → f b = some y → x = y) :
    items'.findSome? f = items.findSome? f := by
  cases hfound : items.findSome? f with
  | none =>
      rw [List.findSome?_eq_none_iff] at hfound ⊢
      exact fun a ha => hfound a (hperm.mem_iff.mpr ha)
  | some x =>
      obtain ⟨a, ha, hx⟩ := List.exists_of_findSome?_eq_some hfound
      cases hfound' : items'.findSome? f with
      | none =>
          rw [List.findSome?_eq_none_iff] at hfound'
          rw [hfound' a (hperm.mem_iff.mp ha)] at hx
          cases hx
      | some y =>
          obtain ⟨b, hb, hy⟩ := List.exists_of_findSome?_eq_some hfound'
          rw [hagree a ha b (hperm.mem_iff.mpr hb) x y hx hy]

namespace ShowRows

variable {indexes indexes' columns : List Row} {row index other : Row} {column key key' : String}
  {kind : IndexKind}

/-- The number of rows that the key has. -/
def rowsOf (indexes : List Row) (key : String) : Nat :=
  indexes.countP fun row => row.text? "Key_name" = some key

/-- The row is all there is of a key on the column, which is not the primary one. -/
structure SingleOn (indexes : List Row) (column key : String) (index : Row) : Prop where
  keyed : index.text? "Key_name" = some key
  secondary : key ≠ "PRIMARY"
  single : rowsOf indexes key = 1
  covers : index.text? "Column_name" = some column

/-- The row is the first one that is all there is of a key on the column. -/
inductive FirstOn (indexes : List Row) (column key : String) (index : Row) : Prop where
  | intro {earlier later : List Row} (hsplit : indexes = earlier ++ index :: later)
      (hsingle : SingleOn indexes column key index)
      (hfirst : ∀ other ∈ earlier, ∀ key', ¬ SingleOn indexes column key' other)

/-- The kind of the index that a row is of. -/
def kindOf (index : Row) : IndexKind :=
  if index.int? "Non_unique" = some 0 then .unique else .nonUnique

/-- A row of a table's columns is reported as this column. -/
structure Describes (indexes : List Row) (row : Row) (live : LiveColumn) : Prop where
  name : row.text? "Field" = some live.name
  indexName : ∀ key, live.indexName = some key ↔ ∃ index, FirstOn indexes live.name key index
  named : ∀ key index, FirstOn indexes live.name key index → live.spec.index = kindOf index
  unnamed : live.indexName = none → live.spec.index =
    if row.text? "Key" = some "UNI" then .unique
    else if row.text? "Key" = some "MUL" then .nonUnique
    else .none

/-- The column has at most one key of its own. -/
def HasOneKey (indexes : List Row) (column : String) : Prop :=
  ∀ index ∈ indexes, ∀ other ∈ indexes, ∀ key key',
    SingleOn indexes column key index → SingleOn indexes column key' other → key = key'

/-- No column has two keys of its own where each one stands in a single row. -/
theorem has_one_key_of_nodup (h : (indexes.map (·.text? "Column_name")).Nodup) :
    HasOneKey indexes column := by
  intro index hindex other hother key key' hsingle hsingle'
  have hcovers := hsingle.covers.trans hsingle'.covers.symm
  have hrow := List.inj_on_of_nodup_map h hindex hother hcovers
  subst hrow
  exact Option.some.inj (hsingle.keyed.symm.trans hsingle'.keyed)

theorem parts_eq : parts indexes key = rowsOf indexes key :=
  List.countP_eq_length_filter.symm

theorem index_on_iff : indexOn? indexes column index = some (key, kind) ↔
    SingleOn indexes column key index ∧ kind = kindOf index := by
  unfold indexOn? keyOf
  constructor
  · intro h
    split at h
    · cases h
    · next key' hkey =>
      split at h
      · next hsingle =>
        cases h
        exact ⟨⟨hkey, hsingle.1, parts_eq ▸ hsingle.2.1, hsingle.2.2⟩, rfl⟩
      · cases h
  · rintro ⟨⟨hkey, hsecondary, hsingle, hcolumn⟩, rfl⟩
    rw [hkey]
    exact if_pos ⟨hsecondary, parts_eq.trans hsingle, hcolumn⟩

theorem index_on_none_iff : indexOn? indexes column index = none ↔
    ∀ key, ¬ SingleOn indexes column key index := by
  constructor
  · intro h key hsingle
    rw [index_on_iff.mpr ⟨hsingle, rfl⟩] at h
    cases h
  · intro h
    cases hon : indexOn? indexes column index with
    | none => rfl
    | some found => exact absurd (index_on_iff.mp hon).1 (h found.1)

/-- The search for an index of the column ends at the first row that has one. -/
theorem found_iff : indexes.findSome? (indexOn? indexes column) = some (key, kind) ↔
    ∃ index, FirstOn indexes column key index ∧ kind = kindOf index := by
  rw [List.findSome?_eq_some_iff]
  constructor
  · rintro ⟨earlier, index, later, hsplit, hon, hnone⟩
    obtain ⟨hsingle, hkind⟩ := index_on_iff.mp hon
    exact ⟨index, ⟨hsplit, hsingle, fun other hother => index_on_none_iff.mp (hnone other hother)⟩,
      hkind⟩
  · rintro ⟨index, ⟨hsplit, hsingle, hfirst⟩, hkind⟩
    exact ⟨_, index, _, hsplit, index_on_iff.mpr ⟨hsingle, hkind⟩,
      fun other hother => index_on_none_iff.mpr (hfirst other hother)⟩

theorem first_on_found (h : FirstOn indexes column key index) :
    indexes.findSome? (indexOn? indexes column) = some (key, kindOf index) :=
  found_iff.mpr ⟨index, h, rfl⟩

/-- A row with a name is reported as its column. -/
theorem described (hname : row.text? "Field" = some column) :
    ∃ live, column? indexes row = some live ∧ Describes indexes row live := by
  unfold column?
  rw [hname]
  refine ⟨_, rfl, ?_⟩
  dsimp only
  rw [Column.of_type_eq]
  refine ⟨hname, fun key => ?_, fun key index hfirst => ?_, fun hnone => ?_⟩
  · rw [Option.map_eq_some_iff]
    constructor
    · rintro ⟨⟨_, kind⟩, hfound, rfl⟩
      obtain ⟨index, hfirst, -⟩ := found_iff.mp hfound
      exact ⟨index, hfirst⟩
    · rintro ⟨index, hfirst⟩
      exact ⟨_, first_on_found hfirst, rfl⟩
  · have hfound : indexes.findSome? (indexOn? indexes column) = some (key, kindOf index) :=
      first_on_found hfirst
    dsimp only
    rw [hfound]
  · rw [Option.map_eq_none_iff] at hnone
    dsimp only
    rw [hnone]
    rfl

theorem live_columns_describe : List.Forall₂ (Describes indexes)
    (columns.filter fun row => (row.text? "Field").isSome) (liveColumns columns indexes) := by
  unfold liveColumns
  induction columns with
  | nil => exact .nil
  | cons row columns ih =>
      cases hname : row.text? "Field" with
      | none =>
          have hnone : column? indexes row = none := by rw [column?, hname, Option.map_none]
          rw [List.filter_cons_of_neg (by simp [hname]), List.filterMap_cons_none hnone]
          exact ih
      | some column =>
          obtain ⟨live, hlive, hdescribes⟩ : ∃ live, column? indexes row = some live ∧
              Describes indexes row live := described hname
          rw [List.filter_cons_of_pos (by simp [hname]), List.filterMap_cons_some hlive]
          exact .cons hdescribes ih

/-- What a row says does not depend on the order of the others. -/
theorem index_on_perm (hperm : indexes.Perm indexes') :
    indexOn? indexes' column = indexOn? indexes column := by
  have hparts (key : String) : parts indexes' key = parts indexes key := by
    rw [parts_eq, parts_eq]
    exact (hperm.countP_eq _).symm
  funext index
  unfold indexOn?
  simp only [hparts]

theorem found_perm (hperm : indexes.Perm indexes') (hone : HasOneKey indexes column) :
    indexes'.findSome? (indexOn? indexes' column) =
      indexes.findSome? (indexOn? indexes column) := by
  rw [index_on_perm hperm]
  refine find_some_perm hperm ?_
  rintro index hindex other hother ⟨key, kind⟩ ⟨key', kind'⟩ hon hon'
  obtain ⟨hsingle, rfl⟩ := index_on_iff.mp hon
  obtain ⟨hsingle', rfl⟩ := index_on_iff.mp hon'
  have hkey := hone index hindex other hother key key' hsingle hsingle'
  subst hkey
  have hrow : index = other := eq_of_count_one hsingle.single hindex (decide_eq_true hsingle.keyed)
    hother (decide_eq_true hsingle'.keyed)
  rw [hrow]

/-- Each row with a name is reported as one column, in order, with the first key of its own or else
with its flag. A key of several columns names none of them, and the order of the index rows makes no
difference to columns with at most one key each. -/
theorem columns_attributed (columns indexes : List Row) :
    List.Forall₂ (Describes indexes) (columns.filter fun row => (row.text? "Field").isSome)
      (liveColumns columns indexes) ∧
    (∀ key, 1 < rowsOf indexes key →
      ∀ live ∈ liveColumns columns indexes, live.indexName ≠ some key) ∧
    ∀ indexes', indexes.Perm indexes' →
      (∀ row ∈ columns, ∀ column, row.text? "Field" = some column → HasOneKey indexes column) →
      liveColumns columns indexes' = liveColumns columns indexes := by
  refine ⟨live_columns_describe, fun key hkey live hlive hname => ?_, fun indexes' hperm hone => ?_⟩
  · obtain ⟨row, -, hdescribes⟩ := exists_of_forall₂ live_columns_describe live hlive
    obtain ⟨index, -, hsingle, -⟩ := (hdescribes.indexName key).mp hname
    exact absurd hsingle.single (Nat.ne_of_gt hkey)
  · refine List.filterMap_congr fun row hrow => ?_
    unfold column?
    cases hname : row.text? "Field" with
    | none => rfl
    | some column =>
        rw [Option.map_some, Option.map_some, found_perm hperm (hone row hrow column hname)]

theorem members_attributed :
    let columns : List Row :=
      [⟨[("Field", some (.text "org")), ("Key", some (.text "MUL"))]⟩,
        ⟨[("Field", some (.text "age")), ("Key", some (.text "MUL"))]⟩]
    let indexes : List Row :=
      [⟨[("Key_name", some (.text "org_team")), ("Column_name", some (.text "org"))]⟩,
        ⟨[("Key_name", some (.text "org_team")), ("Column_name", some (.text "team"))]⟩,
        ⟨[("Key_name", some (.text "by_age")), ("Column_name", some (.text "age")),
          ("Non_unique", some (.int 0))]⟩]
    ((liveColumns columns indexes).map fun live => (live.name, live.indexName, live.spec.index)) =
      [("org", none, .nonUnique), ("age", some "by_age", .unique)] ∧
    (∀ live ∈ liveColumns columns indexes, live.indexName ≠ some "org_team") ∧
    liveColumns columns indexes.reverse = liveColumns columns indexes := by
  intro columns indexes
  obtain ⟨-, hseveral, horder⟩ := columns_attributed columns indexes
  have hparts : 1 < rowsOf indexes "org_team" := by decide +kernel
  have hcovers : (indexes.map (·.text? "Column_name")).Nodup := by decide +kernel
  have hsame := horder indexes.reverse indexes.reverse_perm.symm
    fun _ _ _ _ => has_one_key_of_nodup hcovers
  exact ⟨by decide +kernel, hseveral "org_team" hparts, hsame⟩

end ShowRows

end SchemaKeeper

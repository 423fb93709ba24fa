import Mathlib.Data.Finset.Card
import Mathlib.Data.List.Induction
import Mathlib.Data.List.Nodup
import SchemaKeeper.Assignments

/-!
# Column values as an ordered map

Column values are a plain list of pairs, and still a map from columns that keeps them in order: this
holds of every list that can be put together, by single edits, from pairs or from a document. What
one edit makes of the list is `Assignments.Edit.Turns`, and what a whole run of edits leaves is
`Assignments.Records`. `Assignments.edits_kept_in_order` is the main statement.
-/

namespace SchemaKeeper

namespace Assignments

/-- A column is given a value, in its place or in front of all others. -/
inductive Edit where
  | insert (column : String) (value : Scalar)
  | prepend (column : String) (value : Scalar)
  deriving DecidableEq, Repr

namespace Edit

/-- The column that is given a value. -/
def column : Edit → String
  | .insert column _ | .prepend column _ => column

/-- The value that it is given. -/
def value : Edit → Scalar
  | .insert _ value | .prepend _ value => value

/-- The column that is moved to the front, if one is. -/
def fronted? : Edit → Option String
  | .insert _ _ => none
  | .prepend column _ => some column

/-- The edits that insert pairs one after another. -/
def inserts (pairs : List (String × Scalar)) : List Edit :=
  pairs.map fun pair => .insert pair.1 pair.2

/-- The columns that some edits move to the front. -/
def fronted (edits : List Edit) : List String := edits.filterMap fronted?

/-- The columns of some edits in the order that these give them: first those that were moved to the
front, the latest first, and then the others in the order in which they came. -/
def order (edits : List Edit) : List String :=
  (fronted edits).reverse.eraseDups ++
    (edits.map column).eraseDups.filter fun name => name ∉ fronted edits

/-- What an edit makes of a list of entries. An insertion changes the value of a column that is
there and nothing else, and puts another column at the end. A column that is put in front leaves its
old place, and all others stay as they were. -/
inductive Turns : Edit → List (String × Scalar) → List (String × Scalar) → Prop where
  | replaced (before after : List (String × Scalar)) (column : String) (earlier value : Scalar) :
      Turns (.insert column value) (before ++ (column, earlier) :: after)
        (before ++ (column, value) :: after)
  | appended {entries : List (String × Scalar)} {column : String} (value : Scalar)
      (h : column ∉ entries.map Prod.fst) :
      Turns (.insert column value) entries (entries ++ [(column, value)])
  | moved (before after : List (String × Scalar)) (column : String) (earlier value : Scalar) :
      Turns (.prepend column value) (before ++ (column, earlier) :: after)
        ((column, value) :: (before ++ after))
  | led {entries : List (String × Scalar)} {column : String} (value : Scalar)
      (h : column ∉ entries.map Prod.fst) :
      Turns (.prepend column value) entries ((column, value) :: entries)

end Edit

/-- A member of an object gives a column its value. -/
def Gives (member : String × Json) (pair : String × Scalar) : Prop :=
  pair.1 = member.1 ∧ Scalar.ofJson member.2 = .ok pair.2

/-- Column values after an edit. -/
def edit (a : Assignments) : Edit → Assignments
  | .insert column value => a.insert column value
  | .prepend column value => a.prepend column value

/-- The column values that edits make one after another, of none in the beginning. -/
def ofEdits (edits : List Edit) : Assignments := edits.foldl edit ⟨[]⟩

/-- The values are what these edits leave. Each column is there once, in the order of the edits, a
column has the value of the last edit of it, and there are as many as the edits have columns. -/
structure Records (edits : List Edit) (values : Assignments) : Prop where
  distinct : values.columns.Nodup
  order : values.columns = Edit.order edits
  get (column : String) : values.get? column =
    (edits.filter fun e => e.column = column).getLast?.map Edit.value
  size : values.size = (edits.map Edit.column).toFinset.card

variable {values : Assignments} {column : String} {value earlier : Scalar}
  {before after entries : List (String × Scalar)}

/-! ## The list of entries -/

theorem mem_of_get (h : values.get? column = some value) : (column, value) ∈ values.entries := by
  obtain ⟨before, after, hentries, -⟩ := List.lookup_eq_some_iff.mp h
  rw [hentries]
  exact List.mem_append_right _ List.mem_cons_self

/-- Among values with each column once, a column has one value. -/
theorem value_unique (h : values.columns.Nodup) {other : Scalar}
    (hvalue : (column, value) ∈ values.entries) (hother : (column, other) ∈ values.entries) :
    value = other :=
  congrArg Prod.snd (List.inj_on_of_nodup_map h hvalue hother rfl)

/-- A column that is there once is neither before nor after its entry. -/
theorem absent_around (h : ((before ++ (column, value) :: after).map Prod.fst).Nodup) :
    column ∉ before.map Prod.fst ∧ column ∉ after.map Prod.fst := by
  rw [List.map_append, List.map_cons] at h
  have hnone := (List.nodup_middle.mp h).notMem
  rwa [List.mem_append, not_or] at hnone

/-- A column that is there once parts the entries into those before and those after it. -/
theorem split_at_column (h : values.columns.Nodup) (hcolumn : column ∈ values.columns) :
    ∃ before earlier after, values.entries = before ++ (column, earlier) :: after ∧
      column ∉ before.map Prod.fst ∧ column ∉ after.map Prod.fst := by
  obtain ⟨⟨c, earlier⟩, hentry, rfl⟩ := List.mem_map.mp hcolumn
  obtain ⟨before, after, hentries⟩ := List.append_of_mem hentry
  rw [columns, hentries] at h
  exact ⟨before, earlier, after, hentries, absent_around h⟩

theorem put_found (h : column ∉ before.map Prod.fst) :
    put column value (before ++ (column, earlier) :: after) =
      before ++ (column, value) :: after := by
  induction before with
  | nil => exact if_pos rfl
  | cons first rest ih =>
      rw [List.map_cons, List.mem_cons, not_or] at h
      rw [List.cons_append, List.cons_append, put, if_neg (Ne.symm h.1), ih h.2]

theorem put_absent (h : column ∉ entries.map Prod.fst) :
    put column value entries = entries ++ [(column, value)] := by
  induction entries with
  | nil => rfl
  | cons first rest ih =>
      rw [List.map_cons, List.mem_cons, not_or] at h
      rw [List.cons_append, put, if_neg (Ne.symm h.1), ih h.2]

theorem filter_absent (h : column ∉ entries.map Prod.fst) :
    entries.filter (fun e => e.1 ≠ column) = entries := by
  refine List.filter_eq_self.mpr fun entry hentry => decide_eq_true ?_
  rintro rfl
  exact h (List.mem_map_of_mem hentry)

theorem filter_middle (value : Scalar) (hbefore : column ∉ before.map Prod.fst)
    (hafter : column ∉ after.map Prod.fst) :
    (before ++ (column, value) :: after).filter (fun e => e.1 ≠ column) = before ++ after := by
  rw [List.filter_append, filter_absent hbefore, List.filter_cons_of_neg (by simp),
    filter_absent hafter]

theorem lookup_absent (h : column ∉ entries.map Prod.fst) : entries.lookup column = none := by
  refine List.lookup_eq_none_iff.mpr fun entry hentry => bne_iff_ne.mpr ?_
  rintro rfl
  exact h (List.mem_map_of_mem hentry)

theorem get_none_iff : values.get? column = none ↔ column ∉ values.columns := by
  refine ⟨fun h hcolumn => ?_, lookup_absent⟩
  obtain ⟨entry, hentry, rfl⟩ := List.mem_map.mp hcolumn
  exact bne_iff_ne.mp (List.lookup_eq_none_iff.mp h entry hentry) rfl

theorem lookup_first (name : String) : ((column, value) :: entries).lookup name =
    if name = column then some value else entries.lookup name := by
  split
  · next heq => rw [heq, List.lookup_cons_self]
  · next hne => rw [List.lookup_cons, beq_false_of_ne hne]

/-- A column is looked up in its entry, and every other one past it. -/
theorem lookup_middle (h : column ∉ before.map Prod.fst) (name : String) :
    (before ++ (column, value) :: after).lookup name =
      if name = column then some value else (before ++ after).lookup name := by
  rw [List.lookup_append, List.lookup_append, lookup_first]
  split
  · next heq => rw [heq, lookup_absent h, Option.none_or]
  · rfl

/-- What a column had before makes no difference to the others. -/
theorem lookup_past (h : column ∉ before.map Prod.fst) (name : String) :
    (if name = column then some value else (before ++ (column, earlier) :: after).lookup name) =
      if name = column then some value else (before ++ after).lookup name := by
  split
  · rfl
  · next hne => rw [lookup_middle h, if_neg hne]

/-! ## The order of edits -/

namespace Edit

theorem erase_dups_snoc (names : List String) (name : String) : (names ++ [name]).eraseDups =
    if name ∈ names then names.eraseDups else names.eraseDups ++ [name] := by
  rw [List.eraseDups_append]
  split <;> simp_all [List.removeAll, List.eraseDups_cons]

theorem erase_dups_filter (p : String → Bool) (names : List String) :
    (names.filter p).eraseDups = names.eraseDups.filter p := by
  -- Of equal names the first one stays, so that a name at the end touches none of the others.
  induction names using List.reverseRecOn with
  | nil => rfl
  | append_singleton names name ih =>
      rw [List.filter_append, erase_dups_snoc]
      cases hp : p name with
      | false =>
          rw [List.filter_cons_of_neg (by simp [hp]), List.filter_nil, List.append_nil, ih]
          split <;> simp [hp]
      | true =>
          rw [List.filter_cons_of_pos hp, List.filter_nil, erase_dups_snoc, ih]
          simp only [List.mem_filter, hp, and_true]
          split <;> simp [hp]

theorem erase_dups_cons (name : String) (names : List String) : (name :: names).eraseDups =
    name :: names.eraseDups.filter fun other => other ≠ name := by
  rw [List.eraseDups_cons, erase_dups_filter]
  exact congrArg (name :: ·) (List.filter_congr fun other _ => by rw [decide_not, beq_eq_decide])

variable {edits : List Edit} {name : String}

theorem mem_of_fronted (h : name ∈ fronted edits) : name ∈ edits.map Edit.column := by
  obtain ⟨e, he, hname⟩ := List.mem_filterMap.mp h
  refine List.mem_map.mpr ⟨e, he, ?_⟩
  cases e with
  | insert => cases hname
  | prepend => exact Option.some.inj hname

theorem mem_order : name ∈ order edits ↔ name ∈ edits.map Edit.column := by
  have hfronted : name ∈ fronted edits → name ∈ edits.map Edit.column := mem_of_fronted
  unfold order
  simp only [List.mem_append, List.mem_eraseDups, List.mem_reverse, List.mem_filter,
    decide_eq_true_eq]
  tauto

/-- A column that is inserted keeps its place if it has one, and is the last one otherwise. -/
theorem order_insert (edits : List Edit) (name : String) (value : Scalar) :
    order (edits ++ [Edit.insert name value]) =
      if name ∈ order edits then order edits else order edits ++ [name] := by
  have hcolumns : (edits ++ [Edit.insert name value]).map Edit.column =
      edits.map Edit.column ++ [name] := List.map_append
  have hfronted : fronted (edits ++ [Edit.insert name value]) = fronted edits :=
    List.filterMap_append.trans (List.append_nil _)
  rw [if_congr mem_order rfl rfl, order, hcolumns, hfronted, erase_dups_snoc]
  split
  · rfl
  · next h =>
    have hnot : name ∉ fronted edits := fun hname => h (mem_of_fronted hname)
    have hlast : [name].filter (fun other => other ∉ fronted edits) = [name] := by simpa using hnot
    rw [List.filter_append, hlast, ← List.append_assoc, order]

/-- A column that is put in front is the first one, and the others keep their order. -/
theorem order_prepend (edits : List Edit) (name : String) (value : Scalar) :
    order (edits ++ [Edit.prepend name value]) =
      name :: (order edits).filter fun other => other ≠ name := by
  have hcolumns : (edits ++ [Edit.prepend name value]).map Edit.column =
      edits.map Edit.column ++ [name] := List.map_append
  have hfronted : fronted (edits ++ [Edit.prepend name value]) = fronted edits ++ [name] :=
    List.filterMap_append
  have hothers : (edits.map Edit.column ++ [name]).eraseDups.filter
      (fun other => other ∉ fronted edits ++ [name]) =
      ((edits.map Edit.column).eraseDups.filter fun other => other ∉ fronted edits).filter
        fun other => other ≠ name := by
    -- The name may be new or not: it is filtered out either way.
    rw [erase_dups_snoc, List.filter_filter]
    split <;> simp [List.filter_append, and_comm]
  rw [order, hcolumns, hfronted, hothers, List.reverse_append, List.reverse_singleton,
    List.singleton_append, erase_dups_cons, order, List.filter_append, List.cons_append]

end Edit

/-! ## One edit -/

theorem turns_insert (h : values.columns.Nodup) (column : String) (value : Scalar) :
    (Edit.insert column value).Turns values.entries (values.insert column value).entries := by
  unfold insert
  by_cases hcolumn : column ∈ values.columns
  · obtain ⟨before, earlier, after, hentries, hbefore, -⟩ := split_at_column h hcolumn
    rw [hentries, put_found hbefore]
    exact .replaced before after column earlier value
  · rw [put_absent hcolumn]
    exact .appended value hcolumn

theorem turns_prepend (h : values.columns.Nodup) (column : String) (value : Scalar) :
    (Edit.prepend column value).Turns values.entries (values.prepend column value).entries := by
  unfold prepend
  by_cases hcolumn : column ∈ values.columns
  · obtain ⟨before, earlier, after, hentries, hbefore, hafter⟩ := split_at_column h hcolumn
    rw [hentries, filter_middle earlier hbefore hafter]
    exact .moved before after column earlier value
  · rw [filter_absent hcolumn]
    exact .led value hcolumn

/-- Among distinct columns, an edit does one of the four things that `Turns` lists. -/
theorem turns_of_edit (h : values.columns.Nodup) (e : Edit) :
    e.Turns values.entries (values.edit e).entries := by
  cases e with
  | insert column value => exact turns_insert h column value
  | prepend column value => exact turns_prepend h column value

namespace Edit

variable {e : Edit} {old new : List (String × Scalar)}

/-- An edit keeps the columns distinct. -/
theorem Turns.nodup (h : e.Turns old new) (hold : (old.map Prod.fst).Nodup) :
    (new.map Prod.fst).Nodup := by
  cases h with
  | replaced before after column earlier value =>
      rwa [List.map_append, List.map_cons] at hold ⊢
  | appended value hnone =>
      rw [List.map_append, List.map_singleton]
      refine List.nodup_middle.mpr ?_
      rw [List.append_nil]
      exact List.nodup_cons.mpr ⟨hnone, hold⟩
  | moved before after column earlier value =>
      rw [List.map_append, List.map_cons] at hold
      rw [List.map_cons, List.map_append]
      exact List.nodup_middle.mp hold
  | led value hnone => exact List.nodup_cons.mpr ⟨hnone, hold⟩

/-- An edit gives its column its value, and no other column another one. -/
theorem Turns.lookup (h : e.Turns old new) (hold : (old.map Prod.fst).Nodup) (name : String) :
    new.lookup name = if name = e.column then some e.value else old.lookup name := by
  cases h with
  | replaced before after column earlier value =>
      have hbefore := (absent_around hold).1
      exact (lookup_middle hbefore name).trans (lookup_past hbefore name).symm
  | appended value hnone =>
      rw [lookup_middle hnone, List.append_nil]
      rfl
  | moved before after column earlier value =>
      have hbefore := (absent_around hold).1
      exact (lookup_first name).trans (lookup_past hbefore name).symm
  | led value hnone => exact lookup_first name

/-- An edit orders the columns as the edits up to it. -/
theorem Turns.order (h : e.Turns old new) (hold : (old.map Prod.fst).Nodup) {edits : List Edit}
    (horder : old.map Prod.fst = order edits) : new.map Prod.fst = order (edits ++ [e]) := by
  cases h with
  | replaced before after column earlier value =>
      rw [order_insert, ← horder, List.map_append, List.map_append, List.map_cons, List.map_cons,
        if_pos (List.mem_append_right _ List.mem_cons_self)]
  | appended value hnone =>
      rw [order_insert, ← horder, if_neg hnone, List.map_append]
      rfl
  | moved before after column earlier value =>
      obtain ⟨hbefore, hafter⟩ := absent_around hold
      have hothers := filter_middle earlier hbefore hafter
      rw [order_prepend, ← horder, List.filter_map, List.map_cons]
      exact congrArg (fun others => column :: others.map Prod.fst) hothers.symm
  | led value hnone =>
      rw [order_prepend, ← horder, List.filter_map, List.map_cons]
      exact congrArg (fun others => _ :: others.map Prod.fst) (filter_absent hnone).symm

end Edit

/-! ## Runs of edits -/

theorem of_edits_append (edits later : List Edit) :
    ofEdits (edits ++ later) = later.foldl edit (ofEdits edits) :=
  List.foldl_append

/-- There are as many values as columns that were given one. -/
theorem size_of_order {edits : List Edit} (h : values.columns.Nodup)
    (horder : values.columns = Edit.order edits) :
    values.size = (edits.map Edit.column).toFinset.card := by
  have hsame : values.columns.toFinset = (edits.map Edit.column).toFinset := by
    ext name
    rw [List.mem_toFinset, List.mem_toFinset, horder, Edit.mem_order]
  rw [← hsame, List.toFinset_card_of_nodup h, columns, List.length_map, size]

/-- Another edit is recorded. -/
theorem Records.snoc {edits : List Edit} (h : Records edits values) (e : Edit) :
    Records (edits ++ [e]) (values.edit e) := by
  have hturns := turns_of_edit h.distinct e
  have hdistinct := hturns.nodup h.distinct
  have horder := hturns.order h.distinct h.order
  refine ⟨hdistinct, horder, fun column => ?_, size_of_order hdistinct horder⟩
  rw [get?, hturns.lookup h.distinct, List.filter_append]
  split
  · next heq => simp [heq]
  · next hne =>
    rw [List.filter_cons_of_neg (by simpa using Ne.symm hne), List.filter_nil, List.append_nil]
    exact h.get column

/-- The values after any edits are as these record them. -/
theorem records_of_edits (edits : List Edit) : Records edits (ofEdits edits) := by
  induction edits using List.reverseRecOn with
  | nil => exact ⟨List.nodup_nil, rfl, fun _ => rfl, rfl⟩
  | append_singleton edits e ih =>
      rw [of_edits_append]
      exact ih.snoc e

/-- Pairs are collected by inserting them. -/
theorem of_list_eq (pairs : List (String × Scalar)) :
    ofList pairs = ofEdits (Edit.inserts pairs) := by
  unfold ofEdits Edit.inserts
  rw [List.foldl_map]
  rfl

theorem nodup_of_list (pairs : List (String × Scalar)) : (ofList pairs).columns.Nodup := by
  rw [of_list_eq]
  exact (records_of_edits _).distinct

/-- Members can be inserted just if each is a scalar, and it is these that are inserted. -/
theorem insert_members_ok_iff {members : List (String × Json)} {start : Assignments} :
    start.insertMembers members = .ok values ↔ ∃ pairs, List.Forall₂ Gives members pairs ∧
      values = (Edit.inserts pairs).foldl edit start := by
  induction members generalizing start with
  | nil =>
      simp only [List.forall₂_nil_left_iff, exists_eq_left]
      exact ⟨fun h => (Except.ok.inj h).symm, congrArg Except.ok ∘ Eq.symm⟩
  | cons member rest ih =>
      unfold insertMembers
      split
      · next scalar hscalar =>
        rw [ih]
        constructor
        · rintro ⟨pairs, hpairs, rfl⟩
          exact ⟨(member.1, scalar) :: pairs, .cons ⟨rfl, hscalar⟩ hpairs, rfl⟩
        · rintro ⟨_, hpairs, rfl⟩
          obtain ⟨⟨_, value⟩, pairs, ⟨rfl, hvalue⟩, hrest, rfl⟩ :=
            List.forall₂_cons_left_iff.mp hpairs
          cases hscalar.symm.trans hvalue
          exact ⟨pairs, hrest, rfl⟩
      · next e he =>
        refine ⟨nofun, ?_⟩
        rintro ⟨_, hpairs, -⟩
        obtain ⟨pair, _, ⟨-, hvalue⟩, -⟩ := List.forall₂_cons_left_iff.mp hpairs
        cases he.symm.trans hvalue

/-- A document gives column values just if it is an object of scalars, and then its members are
inserted one after another. -/
theorem assignments_of_json_iff {v : Json} : ofJson v = .ok values ↔ ∃ members pairs,
    v = .object members ∧ List.Forall₂ Gives members pairs ∧
      values = ofEdits (Edit.inserts pairs) := by
  constructor
  · intro h
    cases v with
    | object members =>
        obtain ⟨pairs, hpairs, hvalues⟩ := insert_members_ok_iff.mp h
        exact ⟨members, pairs, rfl, hpairs, hvalues⟩
    | _ => cases h
  · rintro ⟨members, pairs, rfl, hpairs, hvalues⟩
    exact insert_members_ok_iff.mpr ⟨pairs, hpairs, hvalues⟩

/-- Column values are an ordered map of columns. After any insertions and prependings each column is
there once, with the value that it was given last, where these edits place it, and there are as many
values as columns that were given one. Whatever was edited before, an edit leaves all other columns
as they are and in their order: a column that is inserted keeps its place or goes to the end, and
one that is put in front is the first. Pairs that are collected, and the members of a document, if
it is an object of scalars, are inserted in their order, so that both are runs of edits as well. -/
theorem edits_kept_in_order :
    (∀ edits : List Edit, Records edits (ofEdits edits) ∧
      ∀ column value,
        (Edit.insert column value).Turns (ofEdits edits).entries
          ((ofEdits edits).insert column value).entries ∧
        (Edit.prepend column value).Turns (ofEdits edits).entries
          ((ofEdits edits).prepend column value).entries) ∧
    (∀ pairs, ofList pairs = ofEdits (Edit.inserts pairs)) ∧
    ∀ v values, ofJson v = .ok values ↔ ∃ members pairs, v = .object members ∧
      List.Forall₂ Gives members pairs ∧ values = ofEdits (Edit.inserts pairs) := by
  refine ⟨fun edits => ?_, of_list_eq, fun v values => assignments_of_json_iff⟩
  have hrecords := records_of_edits edits
  refine ⟨hrecords, fun column value => ⟨?_, ?_⟩⟩
  · exact turns_insert hrecords.distinct column value
  · exact turns_prepend hrecords.distinct column value

/-- A name is changed in its place, and an id is put in front of it. -/
example : (ofEdits [.insert "name" (.text "Ada"), .insert "age" (.int 36),
      .insert "name" (.text "Grace"), .prepend "id" (.text "abc")]).entries =
    [("id", .text "abc"), ("name", .text "Grace"), ("age", .int 36)] := by decide

end Assignments

end SchemaKeeper

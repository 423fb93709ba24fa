import Mathlib.Data.List.Forall2
import SchemaKeeper.Proofs.Session.Exact
import SchemaKeeper.Proofs.Synchronization.Tracking

/-!
# The columns that two runs track

A dry run and an executing one keep a list of live columns each. `Alike` says that the two lists
differ at most in that the engine has given an index another name, and `Abreast` adds what holds of
the engine of the executing run. Each edit that a run makes to its list keeps them.
-/

namespace SchemaKeeper

namespace Synchronization

open Structure

variable {d : Dialect} {table name after : String} {live live' full : List LiveColumn}
  {c : LiveColumn} {f : LiveColumn → LiveColumn}

/-- The column of the executing run is the one of the dry run, or else it is what a rebuild made of
it, under the name that its statement gave to the index. -/
def Likened (d : Dialect) (table : String) (c c' : LiveColumn) : Prop :=
  c' = c ∨ d = .sqlite ∧ c' = added d table c.spec

theorem Likened.spec_eq {c c' : LiveColumn} (h : Likened d table c c') : c'.spec = c.spec := by
  rcases h with rfl | ⟨-, rfl⟩ <;> rfl

/-- The columns of two runs, one by one. -/
abbrev Alike (d : Dialect) (table : String) (live live' : List LiveColumn) : Prop :=
  List.Forall₂ (Likened d table) live live'

namespace Alike

theorem refl (live : List LiveColumn) : Alike d table live live :=
  List.forall₂_same.mpr fun _ _ => .inl rfl

theorem specs_eq (h : Alike d table live live') :
    live'.map LiveColumn.spec = live.map LiveColumn.spec := by
  induction h with
  | nil => rfl
  | cons hc _ ih => rw [List.map_cons, List.map_cons, hc.spec_eq, ih]

theorem names_eq (h : Alike d table live live') :
    live'.map LiveColumn.name = live.map LiveColumn.name := by
  have hspecs := congrArg (List.map Column.name) h.specs_eq
  rwa [List.map_map, List.map_map] at hspecs

/-- MySQL never gives an index another name. -/
theorem eq_of_mysql (h : Alike .mysql table live live') : live' = live := by
  induction h with
  | nil => rfl
  | cons hc _ ih =>
      rcases hc with rfl | ⟨hsqlite, -⟩
      · rw [ih]
      · cases hsqlite

/-- A name is found in both lists or in none. -/
theorem find_cases (h : Alike d table live live') (name : String) :
    (live.find? (fun c => c.name = name) = none ∧ live'.find? (fun c => c.name = name) = none) ∨
      ∃ c c', live.find? (fun c => c.name = name) = some c ∧
        live'.find? (fun c => c.name = name) = some c' ∧ Likened d table c c' := by
  induction h with
  | nil => exact .inl ⟨rfl, rfl⟩
  | @cons c c' rest rest' hc _ ih =>
      have hname : c'.name = c.name := congrArg Column.name hc.spec_eq
      by_cases hfound : c.name = name
      · refine .inr ⟨c, c', List.find?_cons_of_pos (by simpa using hfound),
          List.find?_cons_of_pos ?_, hc⟩
        rw [hname]
        simpa using hfound
      · rw [List.find?_cons_of_neg (by simpa using hfound), List.find?_cons_of_neg]
        · exact ih
        · rw [hname]
          simpa using hfound

/-- A replacement that goes by the declared side alone makes the same of both columns. -/
theorem replace (h : Alike d table live live') (hf : ∀ c c', c'.spec = c.spec → f c' = f c) :
    Alike d table (replaceFirst name f live) (replaceFirst name f live') := by
  induction h with
  | nil => exact .nil
  | @cons c c' rest rest' hc hrest ih =>
      have hname : c'.name = c.name := congrArg Column.name hc.spec_eq
      unfold replaceFirst
      rw [hname]
      split
      · exact .cons (.inl (hf c c' hc.spec_eq)) hrest
      · exact .cons hc ih

/-- The declared sides stay the same if the replacement makes the same of them. -/
theorem replace_specs (h : Alike d table live live')
    (hf : ∀ c c', c'.spec = c.spec → (f c').spec = (f c).spec) :
    (replaceFirst name f live').map LiveColumn.spec =
      (replaceFirst name f live).map LiveColumn.spec := by
  induction h with
  | nil => rfl
  | @cons c c' rest rest' hc hrest ih =>
      have hname : c'.name = c.name := congrArg Column.name hc.spec_eq
      unfold replaceFirst
      rw [hname]
      split
      · rw [List.map_cons, List.map_cons, hf c c' hc.spec_eq, specs_eq hrest]
      · rw [List.map_cons, List.map_cons, hc.spec_eq, ih]

/-- Columns of a name go from both lists. -/
theorem filter (h : Alike d table live live') (name : String) :
    Alike d table (live.filter fun c => c.name ≠ name) (live'.filter fun c => c.name ≠ name) := by
  induction h with
  | nil => exact .nil
  | @cons c c' rest rest' hc _ ih =>
      have hname : c'.name = c.name := congrArg Column.name hc.spec_eq
      rw [List.filter_cons, List.filter_cons, hname]
      split
      · exact .cons hc ih
      · exact ih

theorem insert (h : Alike d table live live') (after : String) (c : LiveColumn) :
    Alike d table (insertAfter after c live) (insertAfter after c live') := by
  have hplace : live'.findIdx? (fun c => c.name = after) =
      live.findIdx? fun c => c.name = after := by
    have hnames := congrArg (List.findIdx? fun name => name = after) h.names_eq
    rwa [List.findIdx?_map, List.findIdx?_map] at hnames
  unfold insertAfter
  rw [hplace]
  split
  · exact List.rel_append (List.forall₂_take _ h) (.cons (.inl rfl) (List.forall₂_drop _ h))
  · exact .cons (.inl rfl) h

end Alike

/-- The index name of a column is the one that the dialect gives to it, or else the table had the
column at first, and its index had this name. -/
def Sourced (d : Dialect) (table : String) (initial : Structure) (c : LiveColumn) : Prop :=
  c = added d table c.spec ∨ ∃ columns first, initial.users table = some columns ∧
    first ∈ columns ∧ first.name = c.name ∧ first.indexName = c.indexName

/-- A new definition leaves the name of the index alone. -/
theorem Sourced.redefine {initial : Structure} {column : Column} (h : Sourced d table initial c)
    (hname : column.name = c.name) (hindex : column.index = c.spec.index) :
    Sourced d table initial { c with spec := column } := by
  rcases h with hadded | ⟨columns, first, hcolumns, hfirst, hname', hindexName⟩
  · refine .inl ?_
    have hc : c.indexName = (added d table column).indexName := by
      rw [hadded, added, added, hindex, hname]
      rfl
    rw [hc]
    rfl
  · exact .inr ⟨columns, first, hcolumns, hfirst, hname'.trans hname.symm, hindexName⟩

/-- A column of a list in which the first one of a name was replaced. -/
theorem mem_replace_first (h : c ∈ replaceFirst name f live) :
    c ∈ live ∨ ∃ old, live.find? (fun c => c.name = name) = some old ∧ c = f old := by
  induction live with
  | nil => cases h
  | cons head rest ih =>
      unfold replaceFirst at h
      split at h
      · next hname =>
          rcases List.mem_cons.mp h with rfl | hrest
          · exact .inr ⟨head, List.find?_cons_of_pos (by simpa using hname), rfl⟩
          · exact .inl (List.mem_cons_of_mem _ hrest)
      · next hname =>
          rcases List.mem_cons.mp h with rfl | hrest
          · exact .inl List.mem_cons_self
          · refine (ih hrest).imp (List.mem_cons_of_mem _) ?_
            rw [List.find?_cons_of_neg (by simpa using hname)]
            exact id

/-- What holds of the columns and of the one that replaces the first of a name holds afterwards. -/
theorem forall_mem_replace_first {p : LiveColumn → Prop} (h : ∀ c ∈ live, p c)
    (hf : ∀ old, live.find? (fun c => c.name = name) = some old → p (f old)) :
    ∀ c ∈ replaceFirst name f live, p c := by
  intro c hc
  rcases mem_replace_first hc with hold | ⟨old, hfind, rfl⟩
  · exact h c hold
  · exact hf old hfind

/-- Where the first column of a name is known, only what becomes of it matters. -/
theorem replace_first_congr {g : LiveColumn → LiveColumn}
    (h : live.find? (fun c => c.name = name) = some c) (hfg : f c = g c) :
    replaceFirst name f live = replaceFirst name g live := by
  induction live with
  | nil => rfl
  | cons head rest ih =>
      unfold replaceFirst
      split
      · next hname =>
          rw [List.find?_cons_of_pos (by simpa using hname)] at h
          cases h
          rw [hfg]
      · next hname =>
          rw [List.find?_cons_of_neg (by simpa using hname)] at h
          rw [ih h]

/-- A column is put behind the first one of the given name. -/
theorem insert_after_append {x : LiveColumn} {before rest : List LiveColumn}
    (hbefore : ∀ c ∈ before, c.name ≠ after) (hx : x.name = after) :
    insertAfter after c (before ++ x :: rest) = before ++ x :: c :: rest := by
  have hplace : (before ++ x :: rest).findIdx? (fun c => c.name = after) = some before.length := by
    rw [List.findIdx?_append, List.findIdx?_eq_none_iff.mpr (by simpa using hbefore),
      List.findIdx?_cons, if_pos (by simpa using hx)]
    simp
  unfold insertAfter
  rw [hplace]
  dsimp only
  rw [List.take_length_add_append, List.drop_length_add_append]
  simp

/-- A column is put in front if there is none of the given name. -/
theorem insert_after_absent (h : ∀ c ∈ live, c.name ≠ after) :
    insertAfter after c live = c :: live := by
  unfold insertAfter
  rw [List.findIdx?_eq_none_iff.mpr (by simpa using h)]

/-- A list either has no column of a name, or has a first one. -/
theorem name_cases (after : String) (live : List LiveColumn) :
    (∀ c ∈ live, c.name ≠ after) ∨ ∃ before x rest, live = before ++ x :: rest ∧ x.name = after ∧
      ∀ c ∈ before, c.name ≠ after := by
  induction live with
  | nil => exact .inl (List.forall_mem_nil _)
  | cons head rest ih =>
      by_cases hname : head.name = after
      · exact .inr ⟨[], head, rest, rfl, hname, List.forall_mem_nil _⟩
      · rcases ih with hnone | ⟨before, x, rest', rfl, hx, hbefore⟩
        · exact .inl (List.forall_mem_cons.mpr ⟨hname, hnone⟩)
        · exact .inr ⟨head :: before, x, rest', rfl, hx, List.forall_mem_cons.mpr ⟨hname, hbefore⟩⟩

/-- In front of the column `id` there are only other reserved ones. -/
def LedById (columns : List LiveColumn) : Prop :=
  (columns.map LiveColumn.name).Pairwise fun first second =>
    second = "id" → Identifier.isReserved first = true ∧ first ≠ "id"

instance (columns : List LiveColumn) : Decidable (LedById columns) :=
  inferInstanceAs (Decidable (List.Pairwise _ _))

theorem user_part_append (first second : List LiveColumn) :
    userPart (first ++ second) = userPart first ++ userPart second :=
  List.filter_append ..

theorem user_part_cons_user {rest : List LiveColumn} (h : Identifier.isReserved c.name = false) :
    userPart (c :: rest) = c :: userPart rest :=
  List.filter_cons_of_pos (by rw [h]; rfl)

theorem user_part_cons_reserved {rest : List LiveColumn}
    (h : Identifier.isReserved c.name = true) : userPart (c :: rest) = userPart rest :=
  List.filter_cons_of_neg (by rw [h]; exact Bool.false_ne_true)

/-- User columns alone are their own user part. -/
theorem user_part_eq_self (h : ∀ c ∈ live, Identifier.isReserved c.name = false) :
    userPart live = live :=
  List.filter_eq_self.mpr fun c hc => by rw [h c hc]; rfl

theorem mem_of_user_part (h : c ∈ userPart full) : c ∈ full :=
  List.mem_of_mem_filter h

theorem unreserved_of_user_part (h : c ∈ userPart full) : Identifier.isReserved c.name = false := by
  simpa using (List.mem_filter.mp h).2

theorem user_part_reserved_part : userPart reservedPart = [] := by decide

/-- SQLite makes a table anew of the listed columns. -/
theorem user_part_carry_modify {column : Column} {listed : List Column}
    (h : ∀ c ∈ listed, Identifier.isReserved c.name = false) :
    userPart (Dialect.sqlite.carry (.modifyColumn table column listed) full) =
      listed.map (added .sqlite table) := by
  rw [Dialect.carry, user_part_append, user_part_reserved_part, List.nil_append]
  exact user_part_eq_self (List.forall_mem_map.mpr h)

/-- A user column is replaced among the user columns. -/
theorem user_part_replace (hname : Identifier.isReserved name = false)
    (hf : ∀ c, c.name = name → (f c).name = name) :
    userPart (replaceFirst name f full) = replaceFirst name f (userPart full) := by
  induction full with
  | nil => rfl
  | cons head rest ih =>
      by_cases hhead : head.name = name
      · have hfree : Identifier.isReserved head.name = false := by rw [hhead, hname]
        have hfree' : Identifier.isReserved (f head).name = false := by rw [hf head hhead, hname]
        rw [user_part_cons_user hfree, replaceFirst, replaceFirst, if_pos hhead, if_pos hhead,
          user_part_cons_user hfree']
      · rw [replaceFirst, if_neg hhead]
        cases hreserved : Identifier.isReserved head.name with
        | true => rw [user_part_cons_reserved hreserved, user_part_cons_reserved hreserved, ih]
        | false =>
            rw [user_part_cons_user hreserved, user_part_cons_user hreserved, ih, replaceFirst,
              if_neg hhead]

/-- Where `id` leads, a column that goes behind `id` goes in front of the user columns, and one that
goes behind a user column does so among these. -/
theorem user_part_insert (hled : LedById full) (hc : Identifier.isReserved c.name = false)
    (hafter : after = "id" ∨ Identifier.isReserved after = false) :
    userPart (insertAfter after c full) = insertAfter after c (userPart full) := by
  rcases name_cases after full with hnone | ⟨before, x, rest, rfl, hx, hbefore⟩
  · rw [insert_after_absent hnone, user_part_cons_user hc,
      insert_after_absent fun e he => hnone e (mem_of_user_part he)]
  · rw [insert_after_append hbefore hx, user_part_append, user_part_append]
    rcases hafter with rfl | hafter
    · have hx' : Identifier.isReserved x.name = true := by
        rw [hx]
        rfl
      have hfront : userPart before = [] := by
        refine List.filter_eq_nil_iff.mpr fun e he => ?_
        rw [LedById, List.map_append, List.map_cons, List.pairwise_append] at hled
        have hreserved := (hled.2.2 e.name (List.mem_map_of_mem he) x.name List.mem_cons_self hx).1
        rw [hreserved]
        exact Bool.false_ne_true
      rw [user_part_cons_reserved hx', user_part_cons_reserved hx', user_part_cons_user hc, hfront,
        List.nil_append, List.nil_append, insert_after_absent]
      intro e he hid
      have hfree := unreserved_of_user_part he
      rw [hid] at hfree
      cases hfree
    · have hx' : Identifier.isReserved x.name = false := by rw [hx, hafter]
      rw [user_part_cons_user hx', user_part_cons_user hx', user_part_cons_user hc,
        insert_after_append (fun e he => hbefore e (mem_of_user_part he)) hx]

theorem LedById.replace (h : LedById full) (hf : ∀ c, c.name = name → (f c).name = name) :
    LedById (replaceFirst name f full) := by
  unfold LedById
  rwa [names_replace_first hf]

theorem LedById.filter (h : LedById full) (p : LiveColumn → Bool) : LedById (full.filter p) :=
  List.Pairwise.sublist (List.filter_sublist.map _) h

/-- A user column that goes behind `id` or behind another user column leaves `id` in front. -/
theorem LedById.insert (h : LedById full) (hc : Identifier.isReserved c.name = false)
    (hafter : after = "id" ∨
      Identifier.isReserved after = false ∧ after ∈ full.map LiveColumn.name) :
    LedById (insertAfter after c full) := by
  have hid : c.name ≠ "id" := by
    intro hid
    rw [hid] at hc
    cases hc
  rcases name_cases after full with hnone | ⟨before, x, rest, rfl, hx, hbefore⟩
  · rw [insert_after_absent hnone]
    refine List.pairwise_cons.mpr ⟨fun e he hid' => ?_, h⟩
    obtain ⟨e', he', rfl⟩ := List.mem_map.mp he
    rcases hafter with rfl | ⟨-, hmem⟩
    · exact absurd hid' (hnone e' he')
    · obtain ⟨e'', he'', hname⟩ := List.mem_map.mp hmem
      exact absurd hname (hnone e'' he'')
  · rw [insert_after_append hbefore hx]
    rw [LedById, List.map_append, List.map_cons, List.pairwise_append, List.pairwise_cons] at h
    obtain ⟨hfront, ⟨hxrest, hrest⟩, hcross⟩ := h
    -- What stands behind the new column stood behind the one in front of it, so it is not `id`.
    have hnew : ∀ e ∈ rest.map LiveColumn.name, e ≠ "id" := by
      intro e he hid'
      obtain ⟨hreserved, hne⟩ := hxrest e he hid'
      rw [hx] at hreserved hne
      rcases hafter with rfl | ⟨hfree, -⟩
      · exact hne rfl
      · rw [hfree] at hreserved
        cases hreserved
    rw [LedById, List.map_append, List.map_cons, List.map_cons, List.pairwise_append,
      List.pairwise_cons, List.pairwise_cons]
    refine ⟨hfront, ⟨?_, fun e he hid' => absurd hid' (hnew e he), hrest⟩, ?_⟩
    · exact List.forall_mem_cons.mpr ⟨fun hid' => absurd hid' hid, hxrest⟩
    · intro e he
      have hcross := List.forall_mem_cons.mp (hcross e he)
      exact List.forall_mem_cons.mpr
        ⟨hcross.1, List.forall_mem_cons.mpr ⟨fun hid' => absurd hid' hid, hcross.2⟩⟩

/-- What holds of the columns that the two runs track in the course of a table: they are alike, and
where the order matters the table of the executing run has just these user columns, behind `id`. The
other tables are as they were when the table was begun. -/
structure Abreast (d : Dialect) (table : String) (initial start : Structure)
    (live live' : List LiveColumn) (t : Structure) : Prop where
  others : ∀ other ≠ table, t other = start other
  alike : Alike d table live live'
  sourced : ∀ c ∈ live, Sourced d table initial c
  unreserved : ∀ c ∈ live, Identifier.isReserved c.name = false
  held : d = .mysql → ∃ full, t table = some full ∧ userPart full = live' ∧ LedById full

namespace Abreast

variable {initial start t : Structure}

/-- An edit of both lists goes with a change that makes the same of the user columns. -/
theorem carry (h : Abreast d table initial start live live' t) {change : Change}
    {new new' : List LiveColumn} (htable : change.table = table) (halike : Alike d table new new')
    (hsourced : ∀ c ∈ new, Sourced d table initial c)
    (hunreserved : ∀ c ∈ new, Identifier.isReserved c.name = false)
    (hedit : d = .mysql → ∀ full, userPart full = live' → LedById full →
      userPart (d.carry change full) = new' ∧ LedById (d.carry change full)) :
    Abreast d table initial start new new' (d.carryOut change t) := by
  subst htable
  refine ⟨fun other hother => ?_, halike, hsourced, hunreserved, fun hd => ?_⟩
  · rw [Dialect.carry_out_other hother, h.others other hother]
  · obtain ⟨full, hfull, huser, hled⟩ := h.held hd
    obtain ⟨huser', hled'⟩ := hedit hd full huser hled
    exact ⟨_, Dialect.carry_out_self hfull, huser', hled'⟩

/-- Columns of a name go from both lists and from the table. -/
theorem drop (h : Abreast d table initial start live live' t) (name : String)
    (index : Option String) : Abreast d table initial start
      (live.filter fun c => c.name ≠ name) (live'.filter fun c => c.name ≠ name)
      (d.carryOut (.dropColumn table name index) t) := by
  refine h.carry rfl (h.alike.filter _) (fun c hc => h.sourced c (List.mem_of_mem_filter hc))
    (fun c hc => h.unreserved c (List.mem_of_mem_filter hc)) fun _ full huser hled => ?_
  refine ⟨?_, hled.filter _⟩
  rw [← huser, userPart, userPart, Dialect.carry, List.filter_filter, List.filter_filter]
  exact List.filter_congr fun c _ => Bool.and_comm _ _

/-- A new column comes behind `id` or behind another user column. -/
theorem add (h : Abreast d table initial start live live' t) {column : Column}
    (hreserved : Identifier.isReserved column.name = false)
    (hafter : after = "id" ∨ after ∈ live.map LiveColumn.name) :
    Abreast d table initial start (insertAfter after (added d table column) live)
      (insertAfter after (added d table column) live')
      (d.carryOut (.addColumn table column after) t) := by
  have hnew : ∀ c ∈ insertAfter after (added d table column) live,
      c = added d table column ∨ c ∈ live := fun c hc =>
    List.mem_cons.mp ((insert_after_perm after _ live).mem_iff.mp hc)
  refine h.carry rfl (h.alike.insert after _) (fun c hc => ?_) (fun c hc => ?_)
    fun hd full huser hled => ?_
  · rcases hnew c hc with rfl | hold
    · exact .inl rfl
    · exact h.sourced c hold
  · rcases hnew c hc with rfl | hold
    · exact hreserved
    · exact h.unreserved c hold
  · have hplace : after = "id" ∨
        Identifier.isReserved after = false ∧ after ∈ full.map LiveColumn.name := by
      refine hafter.imp_right fun hmem => ?_
      rw [← h.alike.names_eq, ← huser] at hmem
      obtain ⟨c, hc, rfl⟩ := List.mem_map.mp hmem
      exact ⟨unreserved_of_user_part hc, List.mem_map_of_mem (mem_of_user_part hc)⟩
    have hfree : Identifier.isReserved (added .mysql table column).name = false := hreserved
    rw [hd, Dialect.carry, user_part_insert hled hfree (hplace.imp_right And.left), huser]
    exact ⟨rfl, hled.insert hfree hplace⟩

/-- A replacement of one column by one of the same name. -/
theorem replace (h : Abreast d table initial start live live' t) {change : Change}
    (htable : change.table = table) (hf : ∀ c, c.name = name → (f c).name = name)
    (hcarry : ∀ full, d.carry change full = replaceFirst name f full)
    (hspec : ∀ c c', c'.spec = c.spec → f c' = f c)
    (hname : Identifier.isReserved name = false)
    (hsourced : ∀ c, c.name = name → Sourced d table initial (f c)) :
    Abreast d table initial start (replaceFirst name f live) (replaceFirst name f live')
      (d.carryOut change t) := by
  refine h.carry htable (h.alike.replace hspec)
    (forall_mem_replace_first h.sourced fun old hfind => ?_)
    (forall_mem_replace_first h.unreserved fun old hfind => ?_) fun _ full huser hled => ?_
  · exact hsourced old (name_of_find LiveColumn.name hfind)
  · rw [hf old (name_of_find LiveColumn.name hfind), hname]
  · rw [hcarry, user_part_replace hname hf, huser]
    exact ⟨rfl, hled.replace hf⟩

/-- The index of a column goes. -/
theorem unindex (h : Abreast d table initial start live live' t)
    (hname : Identifier.isReserved name = false) (index : String) :
    Abreast d table initial start
      (replaceFirst name (fun c => ⟨{ c.spec with index := .none }, none⟩) live)
      (replaceFirst name (fun c => ⟨{ c.spec with index := .none }, none⟩) live')
      (d.carryOut (.dropIndex table name index) t) :=
  h.replace rfl (fun _ hc => hc) (fun _ => rfl) (fun c c' hc => by rw [hc]) hname
    fun _ _ => .inl rfl

/-- A column gets an index, under the name of the dialect. -/
theorem index (h : Abreast d table initial start live live' t)
    (hname : Identifier.isReserved name = false) {kind : IndexKind}
    (hindexed : kind.isIndexed = true) :
    Abreast d table initial start
      (replaceFirst name (fun c => ⟨{ c.spec with index := kind },
        some (d.indexName table name)⟩) live)
      (replaceFirst name (fun c => ⟨{ c.spec with index := kind },
        some (d.indexName table name)⟩) live')
      (d.carryOut (.addIndex table name kind) t) := by
  refine h.replace rfl (fun _ hc => hc) (fun _ => rfl) (fun c c' hc => by rw [hc]) hname
    fun c hc => .inl ?_
  rw [added, hindexed, if_pos rfl, ← hc]
  rfl

/-- After a new definition the dry run goes on with its own list, and the executing run with what
the table then has: in MySQL that is the same, and in SQLite the indexes have the names of the
dialect. -/
theorem reread {declared column : Column} {current : LiveColumn}
    (h : Abreast d table initial start live live' t)
    (hfind : live.find? (fun c => c.name = declared.name) = some current)
    (hcolumn : column = { declared with index := current.spec.index }) {new : List LiveColumn}
    (hnew : new = replaceFirst declared.name (fun c => { c with spec := column }) live) :
    ∃ full, d.carryOut (.modifyColumn table column (new.map LiveColumn.spec)) t table = some full ∧
      Abreast d table initial start new (userPart full)
        (d.carryOut (.modifyColumn table column (new.map LiveColumn.spec)) t) := by
  have hname : current.name = declared.name := name_of_find LiveColumn.name hfind
  have hcurrent : current ∈ live := List.mem_of_find?_eq_some hfind
  have hcolumn' : column.name = declared.name := by rw [hcolumn]
  have hreserved : Identifier.isReserved declared.name = false := by
    rw [← hname]
    exact h.unreserved current hcurrent
  have hunreserved : ∀ c ∈ new, Identifier.isReserved c.name = false := by
    rw [hnew]
    refine forall_mem_replace_first h.unreserved fun old _ => ?_
    exact (congrArg Identifier.isReserved hcolumn').trans hreserved
  have hsourced : ∀ c ∈ new, Sourced d table initial c := by
    rw [hnew]
    refine forall_mem_replace_first h.sourced fun old hold => ?_
    obtain rfl : current = old := Option.some.inj (hfind.symm.trans hold)
    exact (h.sourced current hcurrent).redefine (hcolumn'.trans hname.symm) (by rw [hcolumn])
  refine ⟨_, if_pos rfl, fun other hother => ?_, ?_, hsourced, hunreserved, fun hd =>
    ⟨_, if_pos rfl, rfl, ?_⟩⟩
  · rw [Dialect.carry_out_other hother, h.others other hother]
  · cases d with
    | sqlite =>
        show Alike .sqlite table new (userPart (Dialect.sqlite.carry _ ((t table).getD [])))
        rw [user_part_carry_modify (List.forall_mem_map.mpr hunreserved), List.map_map]
        exact List.forall₂_map_right_iff.mpr (List.forall₂_same.mpr fun _ _ => .inr ⟨rfl, rfl⟩)
    | mysql =>
        obtain ⟨full, hfull, huser, -⟩ := h.held rfl
        have hsame : userPart (Dialect.mysql.carry
            (.modifyColumn table column (new.map LiveColumn.spec)) full) = new := by
          rw [Dialect.carry, hcolumn', user_part_replace hreserved, huser, h.alike.eq_of_mysql,
            hnew]
          · exact (replace_first_congr hfind (by rw [hcolumn])).symm
          · exact fun _ _ => rfl
        show Alike .mysql table new (userPart (Dialect.mysql.carry _ ((t table).getD [])))
        rw [hfull, Option.getD_some, hsame]
        exact Alike.refl new
  · subst hd
    obtain ⟨full, hfull, -, hled⟩ := h.held rfl
    show LedById (Dialect.mysql.carry _ ((t table).getD []))
    rw [hfull]
    exact hled.replace fun _ hc => rfl

end Abreast

end Synchronization

end SchemaKeeper

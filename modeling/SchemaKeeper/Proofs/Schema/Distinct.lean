import Mathlib.Data.List.Nodup
import SchemaKeeper.Proofs.Schema.Grammar
import SchemaKeeper.Proofs.Synchronization.Layout

/-!
# Declared names and the keys they come from

The keys of an object of a document are distinct, `Json.distinct_of_parse`, but tables and columns
go by what cleaning leaves of them. Two keys that differ only in characters that cleaning removes
declare one name twice. Lookups then reach only the first of the two, and this is all that stands in
their way: `Declaration.FoundByKey` says so for a list of members, and holds on both levels of every
document that declares a schema.
-/

namespace SchemaKeeper

namespace Json

/-- In no object of the value a key is there twice. -/
inductive Distinct : Json → Prop where
  | null : Distinct .null
  | bool (b : Bool) : Distinct (.bool b)
  | integer (i : Int) : Distinct (.integer i)
  | real (x : Binary64) : Distinct (.real x)
  | text (s : String) : Distinct (.text s)
  | array {items : List Json} (hitems : ∀ item ∈ items, Distinct item) : Distinct (.array items)
  | object {members : List (String × Json)} (hkeys : (members.map Prod.fst).Nodup)
      (hvalues : ∀ member ∈ members, Distinct member.2) : Distinct (.object members)

theorem mem_put_member {key : String} {value : Json} {member : String × Json}
    {members : List (String × Json)} (h : member ∈ putMember key value members) :
    member = (key, value) ∨ member ∈ members := by
  induction members with
  | nil => exact .inl (List.mem_singleton.mp h)
  | cons first rest ih =>
      unfold putMember at h
      split at h
      · next hkey =>
        rw [hkey] at h
        exact (List.mem_cons.mp h).imp_right (List.mem_cons_of_mem _)
      · rcases List.mem_cons.mp h with h | h
        · exact .inr (List.mem_cons.mpr (.inl h))
        · exact (ih h).imp_right (List.mem_cons_of_mem _)

/-- A key that is present keeps its place, and another one goes to the end. -/
theorem keys_put_member (key : String) (value : Json) (members : List (String × Json)) :
    (putMember key value members).map Prod.fst =
      if key ∈ members.map Prod.fst then members.map Prod.fst
      else members.map Prod.fst ++ [key] := by
  induction members with
  | nil => rfl
  | cons first rest ih =>
      unfold putMember
      by_cases hkey : first.1 = key
      · simp [hkey]
      · have hne : key ≠ first.1 := fun h => hkey h.symm
        rw [if_neg hkey, List.map_cons, ih]
        split <;> simp_all

/-- The members read so far have distinct keys, and so have the objects within them. -/
def DistinctMembers (members : List (String × Json)) : Prop :=
  (members.map Prod.fst).Nodup ∧ ∀ member ∈ members, member.2.Distinct

theorem DistinctMembers.put {members : List (String × Json)} (h : DistinctMembers members)
    {value : Json} (hvalue : value.Distinct) (key : String) :
    DistinctMembers (putMember key value members) := by
  constructor
  · rw [keys_put_member]
    split
    · exact h.1
    · next hkey =>
      exact List.nodup_append.mpr ⟨h.1, List.nodup_singleton key, by
        rintro k hk _ hkey' rfl
        exact hkey (List.mem_singleton.mp hkey' ▸ hk)⟩
  · intro member hmember
    rcases mem_put_member hmember with rfl | hmember
    · exact hvalue
    · exact h.2 member hmember

theorem distinct_of_literal {literal : Literal} {v : Json} (h : literal.value? = some v) :
    v.Distinct := by
  have hreal : ∀ {x : Option Binary64}, x.map real = some v → v.Distinct := by
    intro x hx
    obtain ⟨x, -, rfl⟩ := Option.map_eq_some_iff.mp hx
    exact .real x
  unfold Literal.value? at h
  dsimp only at h
  split at h
  · split_ifs at h
    · cases h
      exact .integer _
    · exact hreal h
    · cases h
      exact .integer _
  · split at h
    · exact hreal h
    · split_ifs at h <;> exact hreal h

/-- With this fuel only values with distinct keys are read. -/
structure ReadsDistinct (fuel : Nat) : Prop where
  value : ∀ {depth s v rest}, takeValue? fuel depth s = some (v, rest) → v.Distinct
  items : ∀ {depth s vs rest}, takeItems? fuel depth s = some (vs, rest) → ∀ v ∈ vs, v.Distinct
  members : ∀ {depth read s ms rest}, DistinctMembers read →
    takeMembers? fuel depth read s = some (ms, rest) → DistinctMembers ms

theorem ReadsDistinct.value_succ {fuel : Nat} (h : ReadsDistinct fuel) {depth : Nat}
    {s rest : List Char} {v : Json} (hread : takeValue? (fuel + 1) depth s = some (v, rest)) :
    v.Distinct := by
  rw [takeValue?] at hread
  split at hread
  · cases hread
    exact .null
  · cases hread
    exact .bool true
  · cases hread
    exact .bool false
  · obtain ⟨⟨t, rest'⟩, -, hend⟩ := Option.map_eq_some_iff.mp hread
    cases hend
    exact .text t
  · split at hread
    · cases hread
    split at hread
    · cases hread
      exact .array (List.forall_mem_nil _)
    · obtain ⟨⟨items, rest'⟩, hitems, hend⟩ := Option.map_eq_some_iff.mp hread
      cases hend
      exact .array (h.items hitems)
  · split at hread
    · cases hread
    split at hread
    · cases hread
      exact .object List.nodup_nil (List.forall_mem_nil _)
    · obtain ⟨⟨members, rest'⟩, hmembers, hend⟩ := Option.map_eq_some_iff.mp hread
      cases hend
      have hnone : DistinctMembers [] := ⟨List.nodup_nil, List.forall_mem_nil _⟩
      obtain ⟨hkeys, hvalues⟩ := h.members hnone hmembers
      exact .object hkeys hvalues
  · obtain ⟨⟨literal, rest'⟩, -, hread⟩ := Option.bind_eq_some_iff.mp hread
    obtain ⟨value, hvalue, hend⟩ := Option.bind_eq_some_iff.mp hread
    cases hend
    exact distinct_of_literal hvalue

theorem ReadsDistinct.items_succ {fuel : Nat} (h : ReadsDistinct fuel) {depth : Nat}
    {s rest : List Char} {vs : List Json}
    (hread : takeItems? (fuel + 1) depth s = some (vs, rest)) : ∀ v ∈ vs, v.Distinct := by
  rw [takeItems?] at hread
  obtain ⟨⟨item, rest₁⟩, hitem, hread⟩ := Option.bind_eq_some_iff.mp hread
  have hdistinct := h.value hitem
  dsimp only at hread
  split at hread
  · obtain ⟨⟨items, rest₂⟩, hitems, hend⟩ := Option.map_eq_some_iff.mp hread
    cases hend
    exact List.forall_mem_cons.mpr ⟨hdistinct, h.items hitems⟩
  · cases hread
    exact List.forall_mem_cons.mpr ⟨hdistinct, List.forall_mem_nil _⟩
  · cases hread

theorem ReadsDistinct.members_succ {fuel : Nat} (h : ReadsDistinct fuel) {depth : Nat}
    {s rest : List Char} {read ms : List (String × Json)} (hdistinct : DistinctMembers read)
    (hread : takeMembers? (fuel + 1) depth read s = some (ms, rest)) : DistinctMembers ms := by
  rw [takeMembers?] at hread
  obtain ⟨⟨key, rest₁⟩, -, hread⟩ := Option.bind_eq_some_iff.mp hread
  obtain ⟨⟨value, rest₂⟩, hvalue, hread⟩ := Option.bind_eq_some_iff.mp hread
  have hput := hdistinct.put (h.value hvalue) key
  dsimp only at hread
  split at hread
  · exact h.members hput hread
  · cases hread
    exact hput
  · cases hread

theorem reads_distinct (fuel : Nat) : ReadsDistinct fuel := by
  induction fuel with
  | zero =>
      constructor
      · intro depth s v rest h
        rw [takeValue?] at h
        cases h
      · intro depth s vs rest h
        rw [takeItems?] at h
        cases h
      · intro depth read s ms rest _ h
        rw [takeMembers?] at h
        cases h
  | succ fuel ih => exact ⟨ih.value_succ, ih.items_succ, ih.members_succ⟩

/-- Every document that is read has distinct keys in its objects. -/
theorem distinct_of_parse {text : String} {document : Json} (h : parse? text = some document) :
    document.Distinct := by
  obtain ⟨⟨value, rest⟩, hvalue, h⟩ := Option.bind_eq_some_iff.mp h
  dsimp only at h
  split at h
  · cases h
    exact (reads_distinct _).value hvalue
  · cases h

end Json

namespace Declaration

open Identifier

/-- Cleaning gives two different keys of the members one name. -/
def Merges (members : List (String × Json)) : Prop :=
  ∃ member ∈ members, ∃ other ∈ members, member.1 ≠ other.1 ∧ cleaned member.1 = cleaned other.1

/-- What members declare is found under their cleaned keys. A lookup gives what the first member
with the name declares. If the members merge no keys, then the names are distinct and lookups reach
everything that is declared, and otherwise the names are not. Keys that are names already are not
merged. -/
structure FoundByKey {α : Type} (Declares : String → Json → α → Prop) (name : α → String)
    (members : List (String × Json)) (results : List α) (find : String → Option α) : Prop where
  first : ∀ n, Option.Rel (fun member a => Declares member.1 member.2 a)
    (members.find? fun member => cleaned member.1 = n) (find n)
  distinct : (results.map name).Nodup ↔ ¬ Merges members
  reached : ¬ Merges members → ∀ a ∈ results, find (name a) = some a
  clean : (∀ member ∈ members, IsClean member.1) → ¬ Merges members

variable {α : Type} {Declares : String → Json → α → Prop} {name : α → String}
  {members : List (String × Json)} {results : List α}

theorem names_declared (hname : ∀ key value a, Declares key value a → name a = cleaned key)
    (h : List.Forall₂ (fun member a => Declares member.1 member.2 a) members results) :
    results.map name = (members.map Prod.fst).map cleaned := by
  induction h with
  | nil => rfl
  | cons hdeclares _ ih =>
      rw [List.map_cons, List.map_cons, List.map_cons, ih, hname _ _ _ hdeclares]

theorem first_found (hname : ∀ key value a, Declares key value a → name a = cleaned key)
    (h : List.Forall₂ (fun member a => Declares member.1 member.2 a) members results) (n : String) :
    Option.Rel (fun member a => Declares member.1 member.2 a)
      (members.find? fun member => cleaned member.1 = n) (results.find? fun a => name a = n) := by
  induction h with
  | nil => exact .none
  | cons hdeclares _ ih =>
      rw [List.find?_cons, List.find?_cons, hname _ _ _ hdeclares]
      split
      · exact .some hdeclares
      · exact ih

theorem merges_iff_blurs : Merges members ↔ Blurs (members.map Prod.fst) := by
  unfold Merges Blurs
  simp only [List.mem_map, exists_exists_and_eq_and]

/-- Members with distinct keys that are not merged have distinct names. -/
theorem nodup_iff_not_merges (hkeys : (members.map Prod.fst).Nodup) :
    ((members.map Prod.fst).map cleaned).Nodup ↔ ¬ Merges members := by
  rw [merges_iff_blurs]
  exact nodup_cleaned_iff hkeys

/-- Keys that are names already are not merged. -/
theorem not_merges_of_clean (h : ∀ member ∈ members, IsClean member.1) : ¬ Merges members := by
  rw [merges_iff_blurs]
  exact not_blurs_of_clean (List.forall_mem_map.mpr h)

theorem found_by_key (hname : ∀ key value a, Declares key value a → name a = cleaned key)
    (hkeys : (members.map Prod.fst).Nodup)
    (h : List.Forall₂ (fun member a => Declares member.1 member.2 a) members results) :
    FoundByKey Declares name members results fun n => results.find? fun a => name a = n := by
  have hdistinct : (results.map name).Nodup ↔ ¬ Merges members := by
    rw [names_declared hname h]
    exact nodup_iff_not_merges hkeys
  exact {
    first := first_found hname h
    distinct := hdistinct
    reached := fun hmerges a ha =>
      Synchronization.find_of_names_nodup name (hdistinct.mpr hmerges) ha
    clean := not_merges_of_clean }

end Declaration

namespace Schema

open Declaration

/-- In a schema that was read from a document with distinct keys, the tables are found by the keys
of the document, and the columns of each table by the keys of its own object: lookups reach all of
them, and their names are distinct, unless two keys of one object are cleaned to one name. -/
theorem names_distinct_unless_merged {document : Json} {schema : Schema}
    (hdistinct : document.Distinct) (h : ofJson document = .ok schema) :
    ∃ members, document = .object members ∧
      FoundByKey OfTable Table.name members schema.tables schema.table? ∧
      List.Forall₂ (fun member t => ∃ columns, member.2 = .object columns ∧
        FoundByKey OfColumn Column.name columns t.columns t.column?) members schema.tables := by
  obtain ⟨hne, htables⟩ := of_json_iff.mp h
  rename_i members tables
  cases hdistinct with
  | object hkeys hvalues =>
      have htable : FoundByKey OfTable Table.name members tables (Schema.table? ⟨tables⟩) :=
        found_by_key (fun _ _ _ ht => ht.name_eq.2) hkeys htables
      refine ⟨members, rfl, htable, ?_⟩
      refine ((List.forall₂_and_left members tables).mpr ⟨hvalues, htables⟩).imp ?_
      rintro ⟨key, value⟩ t ⟨hvalue, ht⟩
      cases ht with
      | intro hword hne hcolumns =>
          cases hvalue with
          | object hkeys hvalues =>
              exact ⟨_, rfl, found_by_key (fun _ _ _ hc => hc.name_eq.2) hkeys hcolumns⟩

/-- A text that is accepted is a document that is. -/
theorem exists_document {text : String} {schema : Schema} (h : ofText text = .ok schema) :
    ∃ document, Json.parse? text = some document ∧ ofJson document = .ok schema := by
  obtain ⟨document, hparse, hdeclares⟩ := of_text_iff.mp h
  exact ⟨document, hparse, of_json_iff.mpr hdeclares⟩

/-- Two tables, of which one has two columns. One key loses a blank. -/
def listedText : String :=
  "\x7b\"users\":\x7b\"na me\":null,\"age\":\x7b\"type\":\"INT\"\x7d\x7d," ++
    "\"posts\":\x7b\"title\":null\x7d\x7d"

/-- What this text declares. -/
def listedSchema : Schema :=
  ⟨[⟨"users", [.ofType "name" Column.defaultEngineType true none .none,
      .ofType "age" "INT" true none .none]⟩,
    ⟨"posts", [.ofType "title" Column.defaultEngineType true none .none]⟩]⟩

/-- All names of this text are found. -/
theorem listed_names_found : ∃ document, Json.parse? listedText = some document ∧
    document.Distinct ∧ ofJson document = .ok listedSchema ∧
    ∃ members, document = .object members ∧
      FoundByKey OfTable Table.name members listedSchema.tables listedSchema.table? ∧
      List.Forall₂ (fun member t => ∃ columns, member.2 = .object columns ∧
        FoundByKey OfColumn Column.name columns t.columns t.column?) members
        listedSchema.tables := by
  have haccepted : ofText listedText = .ok listedSchema := by decide +kernel
  obtain ⟨document, hparse, hschema⟩ := exists_document haccepted
  have hdistinct := Json.distinct_of_parse hparse
  exact ⟨document, hparse, hdistinct, hschema, names_distinct_unless_merged hdistinct hschema⟩

/-- Two tables whose keys are cleaned to one name, and so are those of the columns of the first. -/
def mergedText : String :=
  "\x7b\"t\":\x7b\"a\":\x7b\"type\":\"TEXT\"\x7d,\"a;\":\x7b\"type\":\"INT\"\x7d\x7d," ++
    "\"t;\":\x7b\"b\":null\x7d\x7d"

/-- What this text declares: the table `t` twice, and in the first one of them the column `a`
twice. -/
def mergedSchema : Schema :=
  ⟨[⟨"t", [.ofType "a" "TEXT" true none .none, .ofType "a" "INT" true none .none]⟩,
    ⟨"t", [.ofType "b" Column.defaultEngineType true none .none]⟩]⟩

/-- Declared names need not be distinct: this text is accepted, its keys are distinct, and lookups
reach neither the second table nor the second column. -/
theorem merged_names_not_found : ∃ document, Json.parse? mergedText = some document ∧
    document.Distinct ∧ ofJson document = .ok mergedSchema ∧
    ¬ (mergedSchema.tables.map Table.name).Nodup ∧
    (∃ t ∈ mergedSchema.tables, mergedSchema.table? t.name ≠ some t) ∧
    ∃ t ∈ mergedSchema.tables, ¬ (t.columns.map Column.name).Nodup ∧
      ∃ c ∈ t.columns, t.column? c.name ≠ some c := by
  have haccepted : ofText mergedText = .ok mergedSchema := by decide +kernel
  obtain ⟨document, hparse, hschema⟩ := exists_document haccepted
  exact ⟨document, hparse, Json.distinct_of_parse hparse, hschema, by decide +kernel⟩

end Schema

end SchemaKeeper

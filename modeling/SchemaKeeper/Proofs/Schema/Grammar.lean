import Mathlib.Data.List.Nodup
import SchemaKeeper.CommandLine.Program
import SchemaKeeper.Proofs.Statement.Grammar

/-!
# The grammar of schema descriptions

A description is read in three levels, of which each one reports the faults of the one below it. The
grammar here has a relation for each level that says what a document declares, without the order in
which it is checked: `Declaration.OfColumn`, `Declaration.OfTable` and `Declaration.OfSchema`. The
shapes of the documents that declare something at all are `IsColumn`, `IsTable` and `IsSchema`.
A document is accepted just if it has this shape, nothing of it is lost or moved, and every other
one is refused as an invalid schema.
-/

namespace SchemaKeeper

theorem except_bind_error {ε α β : Type} {r : Except ε α} {f : α → Except ε β} {e : ε}
    (h : (r >>= f) = .error e) : r = .error e ∨ ∃ a, r = .ok a ∧ f a = .error e := by
  cases r with
  | error e' =>
      cases h
      exact .inl rfl
  | ok a => exact .inr ⟨a, rfl, h⟩

/-- A pass over a list succeeds just if it does on each element, and its results are in order. -/
theorem map_m_ok_iff {ε α β : Type} {f : α → Except ε β} {items : List α} {results : List β} :
    items.mapM f = .ok results ↔ List.Forall₂ (fun a b => f a = .ok b) items results := by
  induction items generalizing results with
  | nil =>
      rw [List.forall₂_nil_left_iff]
      exact ⟨fun h => by cases h; rfl, by rintro rfl; rfl⟩
  | cons a rest ih =>
      rw [List.mapM_cons, except_bind_ok_iff, List.forall₂_cons_left_iff]
      constructor
      · rintro ⟨b, hb, h⟩
        obtain ⟨bs, hbs, hend⟩ := except_bind_ok_iff.mp h
        cases hend
        exact ⟨b, bs, hb, ih.mp hbs, rfl⟩
      · rintro ⟨b, bs, hb, hbs, rfl⟩
        exact ⟨b, hb, except_bind_ok_iff.mpr ⟨bs, ih.mpr hbs, rfl⟩⟩

/-- A pass over a list fails as one of its elements does. -/
theorem map_m_error {ε α β : Type} {f : α → Except ε β} {items : List α} {e : ε}
    (h : items.mapM f = .error e) : ∃ a ∈ items, f a = .error e := by
  induction items with
  | nil => cases h
  | cons a rest ih =>
      rw [List.mapM_cons] at h
      rcases except_bind_error h with h | ⟨b, -, h⟩
      · exact ⟨a, List.mem_cons_self, h⟩
      · rcases except_bind_error h with h | ⟨bs, -, h⟩
        · obtain ⟨a', ha', h'⟩ := ih h
          exact ⟨a', List.mem_cons_of_mem _ ha', h'⟩
        · cases h

/-- What is related to the elements of a list, one by one, is related to one of them each. -/
theorem exists_of_forall₂ {α β : Type} {R : α → β → Prop} {items : List α} {results : List β}
    (h : List.Forall₂ R items results) : ∀ b ∈ results, ∃ a ∈ items, R a b := by
  induction h with
  | nil => exact List.forall_mem_nil _
  | @cons a b rest results hab _ ih =>
      refine List.forall_mem_cons.mpr ⟨⟨a, List.mem_cons_self, hab⟩, fun b' hb' => ?_⟩
      obtain ⟨a', ha', hab'⟩ := ih b' hb'
      exact ⟨a', List.mem_cons_of_mem _ ha', hab'⟩

namespace Identifier

/-- The raw name has something that cleaning leaves. -/
def HasWordChar (raw : String) : Prop := ∃ c ∈ raw.toList, IsWordChar c

/-- What cleaning leaves of a raw name. -/
def cleaned (raw : String) : String := String.ofList (raw.toList.filter fun c => IsWordChar c)

theorem sanitize_ok_iff {raw name : String} :
    sanitize raw = .ok name ↔ HasWordChar raw ∧ name = cleaned raw :=
  sanitize_iff

theorem HasWordChar.clean {raw : String} (h : HasWordChar raw) : IsClean (cleaned raw) :=
  is_clean_of_sanitize (sanitize_ok_iff.mpr ⟨h, rfl⟩)

/-- Cleaning gives two different names of the list one name. -/
def Blurs (raws : List String) : Prop :=
  ∃ raw ∈ raws, ∃ other ∈ raws, raw ≠ other ∧ cleaned raw = cleaned other

/-- Cleaning leaves different names different just if it does not blur them. -/
theorem nodup_cleaned_iff {raws : List String} (h : raws.Nodup) :
    (raws.map cleaned).Nodup ↔ ¬ Blurs raws := by
  rw [List.nodup_map_iff_inj_on h]
  constructor
  · rintro hinj ⟨raw, hraw, other, hother, hne, heq⟩
    exact hne (hinj raw hraw other hother heq)
  · intro hblurs raw hraw other hother heq
    by_contra hne
    exact hblurs ⟨raw, hraw, other, hother, hne, heq⟩

/-- Names that cleaning leaves as they are are not blurred. -/
theorem not_blurs_of_clean {raws : List String} (h : ∀ raw ∈ raws, IsClean raw) : ¬ Blurs raws := by
  have hself : ∀ raw ∈ raws, cleaned raw = raw := fun raw hraw =>
    (sanitize_ok_iff.mp (sanitize_clean (h raw hraw))).2.symm
  rintro ⟨raw, hraw, other, hother, hne, heq⟩
  rw [hself raw hraw, hself other hother] at heq
  exact hne heq

end Identifier

/-- What has no blanks at its ends stays as it is. -/
theorem Text.Trims.self {s trimmed : List Char} (h : Trims s trimmed) : Trims trimmed trimmed :=
  ⟨⟨[], [], by simp, List.forall_mem_nil _, List.forall_mem_nil _⟩, h.first, h.last⟩

namespace Declaration

/-- The words that ask for the type of columns that name none. -/
def AsksForDefault (trimmed : List Char) : Prop :=
  trimmed = [] ∨ trimmed.map Char.toLower = "string".toList

/-- The engine type that the member `type` of a declaration names, if there is one. -/
inductive Names : Option Json → String → Prop where
  | absent : Names none Column.defaultEngineType
  | null : Names (some .null) Column.defaultEngineType
  | standard {s : String} {trimmed : List Char} (htrims : Text.Trims s.toList trimmed)
      (hdefault : AsksForDefault trimmed) : Names (some (.text s)) Column.defaultEngineType
  | named {s : String} {trimmed : List Char} (htrims : Text.Trims s.toList trimmed)
      (hown : ¬ AsksForDefault trimmed) : Names (some (.text s)) (String.ofList trimmed)

/-- The members of the declaration of a column, which may be null if it has none. -/
inductive Members : Json → List (String × Json) → Prop where
  | null : Members .null []
  | object (members : List (String × Json)) : Members (.object members) members

/-- The column that a member of a table declares. -/
inductive OfColumn : String → Json → Column → Prop where
  | intro {key : String} {declaration : Json} {members : List (String × Json)} {engineType : String}
      (hname : Identifier.HasWordChar key) (hmembers : Members declaration members)
      (htype : Names (Json.member? "type" members) engineType) :
      OfColumn key declaration
        (.ofType (Identifier.cleaned key) engineType (nullableOf (Json.member? "null" members))
          (defaultOf (Json.member? "default" members)) (indexOf (Json.member? "index" members)))

/-- The table that a member of a schema declares: one column for each of its own members, in their
order. -/
inductive OfTable : String → Json → Table → Prop where
  | intro {key : String} {members : List (String × Json)} {columns : List Column}
      (hname : Identifier.HasWordChar key) (hne : members ≠ [])
      (hcolumns : List.Forall₂ (fun member c => OfColumn member.1 member.2 c) members columns) :
      OfTable key (.object members) ⟨Identifier.cleaned key, columns⟩

/-- The schema that a document declares: one table for each of its members, in their order. -/
inductive OfSchema : Json → Schema → Prop where
  | intro {members : List (String × Json)} {tables : List Table} (hne : members ≠ [])
      (htables : List.Forall₂ (fun member t => OfTable member.1 member.2 t) members tables) :
      OfSchema (.object members) ⟨tables⟩

/-- The member may declare a column: its key has a name, and its value is null, or an object whose
type, if it has one, is null or a text. -/
def IsColumn (key : String) (declaration : Json) : Prop :=
  Identifier.HasWordChar key ∧
    (declaration = .null ∨ ∃ members, declaration = .object members ∧
      (Json.member? "type" members = none ∨ Json.member? "type" members = some .null ∨
        ∃ s, Json.member? "type" members = some (.text s)))

/-- The member may declare a table: its key has a name, and its value is an object with at least one
member, all of which may declare columns. -/
def IsTable (key : String) (value : Json) : Prop :=
  Identifier.HasWordChar key ∧
    ∃ members, value = .object members ∧ members ≠ [] ∧
      ∀ member ∈ members, IsColumn member.1 member.2

/-- The document may declare a schema: it is an object with at least one member, all of which may
declare tables. -/
def IsSchema (document : Json) : Prop :=
  ∃ members, document = .object members ∧ members ≠ [] ∧
    ∀ member ∈ members, IsTable member.1 member.2

/-- The engine type of a declared one. -/
theorem engine_type_of_iff {s engineType : String} :
    Column.engineTypeOf s = engineType ↔ Names (some (.text s)) engineType := by
  have htrims := Text.Trims.of_trim_chars s.toList
  have hdefault : ((Text.trim s).isEmpty || Text.sameIgnoringCase (Text.trim s) "string") = true ↔
      AsksForDefault (Text.trimChars s.toList) := by
    have hstring : Text.asciiLower "string" = String.ofList "string".toList := by decide
    rw [Bool.or_eq_true, String.isEmpty_iff, ← String.toList_eq_nil_iff, Text.sameIgnoringCase,
      beq_iff_eq, hstring, Text.asciiLower, String.ofList_inj, Text.trim, String.toList_ofList]
    rfl
  unfold Column.engineTypeOf
  dsimp only
  split
  · next h =>
    rw [hdefault] at h
    constructor
    · rintro rfl
      exact .standard htrims h
    · intro hnames
      cases hnames with
      | standard => rfl
      | named htrims' hown =>
          rw [htrims'.trim_chars] at h
          exact absurd h hown
  · next h =>
    rw [hdefault] at h
    constructor
    · rintro rfl
      exact .named htrims h
    · intro hnames
      cases hnames with
      | standard htrims' hstandard =>
          rw [htrims'.trim_chars] at h
          exact absurd hstandard h
      | named htrims' hown => rw [Text.trim, htrims'.trim_chars]

/-- The type of a declaration is read as the one that it names. -/
theorem type_of_iff {key : String} {value : Option Json} {engineType : String} :
    (∃ s, typeOf key value = .ok s ∧ Column.engineTypeOf s = engineType) ↔
      Names value engineType := by
  have hdefault : Column.engineTypeOf Column.defaultEngineType = Column.defaultEngineType := by
    decide
  constructor
  · rintro ⟨s, hs, rfl⟩
    cases value with
    | none =>
        cases hs
        rw [hdefault]
        exact .absent
    | some v =>
        cases v with
        | null =>
            cases hs
            rw [hdefault]
            exact .null
        | text t =>
            cases hs
            exact engine_type_of_iff.mp rfl
        | _ => cases hs
  · intro h
    cases h with
    | absent | null => exact ⟨_, rfl, hdefault⟩
    | standard htrims h => exact ⟨_, rfl, engine_type_of_iff.mpr (.standard htrims h)⟩
    | named htrims h => exact ⟨_, rfl, engine_type_of_iff.mpr (.named htrims h)⟩

theorem members_of_iff {key : String} {declaration : Json} {members : List (String × Json)} :
    membersOf key declaration = .ok members ↔ Members declaration members := by
  constructor
  · intro h
    cases declaration with
    | null =>
        cases h
        exact .null
    | object =>
        cases h
        exact .object members
    | _ => cases h
  · rintro (_ | _) <;> rfl

theorem build_iff {key declared : String} {nullable : Bool} {default : Option Scalar}
    {index : IndexKind} {c : Column} :
    Column.build key declared nullable default index = .ok c ↔ Identifier.HasWordChar key ∧
      c = .ofType (Identifier.cleaned key) (Column.engineTypeOf declared) nullable default
        index := by
  unfold Column.build
  rw [except_bind_ok_iff]
  constructor
  · rintro ⟨name, hname, hend⟩
    obtain ⟨hword, rfl⟩ := Identifier.sanitize_ok_iff.mp hname
    exact ⟨hword, (Except.ok.inj hend).symm⟩
  · rintro ⟨hword, hc⟩
    exact ⟨_, Identifier.sanitize_ok_iff.mpr ⟨hword, rfl⟩, congrArg Except.ok hc.symm⟩

/-- A declaration is read as the column that it declares. -/
theorem column_iff {key : String} {declaration : Json} {c : Column} :
    column key declaration = .ok c ↔ OfColumn key declaration c := by
  unfold column
  constructor
  · intro h
    obtain ⟨members, hmembers, h⟩ := except_bind_ok_iff.mp h
    obtain ⟨s, hs, h⟩ := except_bind_ok_iff.mp h
    split at h
    · next hbuild =>
      obtain ⟨hname, hc⟩ := build_iff.mp (hbuild.trans h)
      rw [hc]
      exact .intro hname (members_of_iff.mp hmembers) (type_of_iff.mp ⟨s, hs, rfl⟩)
    · cases h
  · rintro ⟨hname, hmembers, htype⟩
    obtain ⟨s, hs, rfl⟩ := type_of_iff.mpr htype
    refine except_bind_ok_iff.mpr ⟨_, members_of_iff.mpr hmembers, ?_⟩
    refine except_bind_ok_iff.mpr ⟨s, hs, ?_⟩
    rw [build_iff.mpr ⟨hname, rfl⟩]

/-- The members of a table are read as the columns that they declare. -/
theorem columns_iff {members : List (String × Json)} {columns : List Column} :
    (members.mapM fun member => column member.1 member.2) = .ok columns ↔
      List.Forall₂ (fun member c => OfColumn member.1 member.2 c) members columns := by
  simp only [map_m_ok_iff, column_iff]

/-- The name of a table is looked at before its members are. -/
theorem table_eq (key : String) (value : Json) : table key value =
    match Identifier.sanitize key with
    | .error _ => .error (.invalidSchema (.tableName key))
    | .ok name =>
      match value with
      | .object (m :: ms) =>
        ((m :: ms).mapM fun member => column member.1 member.2) >>= fun columns =>
          pure ⟨name, columns⟩
      | _ => .error (.invalidSchema (.noColumns key)) := by
  unfold table
  cases Identifier.sanitize key <;> rfl

/-- An entry is read as the table that it declares. -/
theorem table_iff {key : String} {value : Json} {t : Table} :
    table key value = .ok t ↔ OfTable key value t := by
  rw [table_eq]
  constructor
  · intro h
    split at h
    · cases h
    · next hsanitize =>
      obtain ⟨hword, rfl⟩ := Identifier.sanitize_ok_iff.mp hsanitize
      split at h
      · obtain ⟨columns, hcolumns, hend⟩ := except_bind_ok_iff.mp h
        cases hend
        exact .intro hword (List.cons_ne_nil _ _) (columns_iff.mp hcolumns)
      · cases h
  · rintro ⟨hname, hne, hcolumns⟩
    rename_i members columns
    rw [Identifier.sanitize_ok_iff.mpr ⟨hname, rfl⟩]
    cases members with
    | nil => exact absurd rfl hne
    | cons member rest =>
        exact except_bind_ok_iff.mpr ⟨columns, columns_iff.mpr hcolumns, rfl⟩

/-- A document is read as the schema that it declares. -/
theorem of_json_iff {document : Json} {schema : Schema} :
    Schema.ofJson document = .ok schema ↔ OfSchema document schema := by
  constructor
  · intro h
    unfold Schema.ofJson at h
    split at h
    · cases h
    · next members hne =>
      obtain ⟨tables, htables, hend⟩ := except_bind_ok_iff.mp h
      cases hend
      simp only [map_m_ok_iff, table_iff] at htables
      exact .intro hne htables
    · cases h
  · rintro ⟨hne, htables⟩
    rename_i members tables
    cases members with
    | nil => exact absurd rfl hne
    | cons member rest =>
        refine except_bind_ok_iff.mpr ⟨tables, ?_, rfl⟩
        simpa only [map_m_ok_iff, table_iff] using htables

theorem exists_names {value : Option Json} : (∃ engineType, Names value engineType) ↔
    value = none ∨ value = some .null ∨ ∃ s, value = some (.text s) := by
  constructor
  · rintro ⟨_, _ | _ | _ | _⟩
    · exact .inl rfl
    · exact .inr (.inl rfl)
    · exact .inr (.inr ⟨_, rfl⟩)
    · exact .inr (.inr ⟨_, rfl⟩)
  · rintro (rfl | rfl | ⟨s, rfl⟩)
    · exact ⟨_, .absent⟩
    · exact ⟨_, .null⟩
    · exact ⟨_, engine_type_of_iff.mp rfl⟩

theorem exists_column {key : String} {declaration : Json} :
    (∃ c, OfColumn key declaration c) ↔ IsColumn key declaration := by
  constructor
  · rintro ⟨_, ⟨hname, hmembers, htype⟩⟩
    refine ⟨hname, ?_⟩
    cases hmembers with
    | null => exact .inl rfl
    | object => exact .inr ⟨_, rfl, exists_names.mp ⟨_, htype⟩⟩
  · rintro ⟨hname, hnull | ⟨members, hobject, htype⟩⟩
    · rw [hnull]
      exact ⟨_, .intro hname .null .absent⟩
    · obtain ⟨engineType, hnames⟩ := exists_names.mpr htype
      rw [hobject]
      exact ⟨_, .intro hname (.object members) hnames⟩

theorem exists_table {key : String} {value : Json} :
    (∃ t, OfTable key value t) ↔ IsTable key value := by
  unfold IsTable
  simp only [← exists_column, ← exists_forall₂_iff]
  constructor
  · rintro ⟨_, ⟨hname, hne, hcolumns⟩⟩
    exact ⟨hname, _, rfl, hne, _, hcolumns⟩
  · rintro ⟨hname, _, rfl, hne, columns, hcolumns⟩
    exact ⟨_, .intro hname hne hcolumns⟩

/-- The documents of the right shape are just those that declare a schema. -/
theorem exists_schema {document : Json} :
    (∃ schema, OfSchema document schema) ↔ IsSchema document := by
  unfold IsSchema
  simp only [← exists_table, ← exists_forall₂_iff]
  constructor
  · rintro ⟨_, ⟨hne, htables⟩⟩
    exact ⟨_, rfl, hne, _, htables⟩
  · rintro ⟨_, rfl, hne, tables, htables⟩
    exact ⟨_, .intro hne htables⟩

end Declaration

/-- What a column is like that was declared: it has a name, a type without blanks around it, the
meaning and length of this type, and a length only if its values are texts. -/
structure Column.Sound (c : Column) : Prop where
  name : c.name ≠ "" ∧ ∀ ch ∈ c.name.toList, Identifier.IsWordChar ch
  unblank : ∃ ch ∈ c.engineType.toList, Text.isBlank ch = false
  trimmed : Text.Trims c.engineType.toList c.engineType.toList
  classified : (c.semanticType, c.length) = SemanticType.classify c.engineType
  bounded : ∀ n, c.length = some n → c.semanticType = .text

/-- Only texts have a length. -/
theorem SemanticType.text_of_length {engineType : String} {n : Nat}
    (h : (classify engineType).2 = some n) : (classify engineType).1 = .text := by
  revert h
  unfold classify
  dsimp only
  split_ifs <;> simp

/-- The meaning and length of a column are those of its type. -/
theorem Column.of_type_eq (name engineType : String) (nullable : Bool) (default : Option Scalar)
    (index : IndexKind) : ofType name engineType nullable default index =
      { name, engineType, semanticType := (SemanticType.classify engineType).1,
        length := (SemanticType.classify engineType).2, nullable, default, index } := by
  unfold ofType
  cases SemanticType.classify engineType
  rfl

namespace Declaration

/-- The type of a declared column has no blanks around it, and something between them. -/
theorem Names.trimmed {value : Option Json} {engineType : String} (h : Names value engineType) :
    (∃ ch ∈ engineType.toList, Text.isBlank ch = false) ∧
      Text.Trims engineType.toList engineType.toList := by
  have hdefault : (∃ ch ∈ Column.defaultEngineType.toList, Text.isBlank ch = false) ∧
      Text.Trims Column.defaultEngineType.toList Column.defaultEngineType.toList :=
    ⟨⟨'V', by decide, by decide⟩, .of_trim_chars Column.defaultEngineType.toList⟩
  cases h with
  | absent | null | standard => exact hdefault
  | @named s trimmed htrims hown =>
      rw [String.toList_ofList]
      refine ⟨?_, htrims.self⟩
      cases trimmed with
      | nil => exact absurd (.inl rfl) hown
      | cons ch rest => exact ⟨ch, List.mem_cons_self, htrims.first ch rfl⟩

theorem OfColumn.name_eq {key : String} {declaration : Json} {c : Column}
    (h : OfColumn key declaration c) : Identifier.HasWordChar key ∧
      c.name = Identifier.cleaned key := by
  obtain ⟨hname, -, -⟩ := h
  rw [Column.of_type_eq]
  exact ⟨hname, rfl⟩

/-- Every declared column is sound. -/
theorem OfColumn.sound {key : String} {declaration : Json} {c : Column}
    (h : OfColumn key declaration c) : c.Sound := by
  obtain ⟨hword, hmembers, htype⟩ := h
  obtain ⟨hunblank, htrimmed⟩ := htype.trimmed
  have hchars ch hch := (Identifier.is_name_char_iff ch).mp (hword.clean.2 ch hch)
  rw [Column.of_type_eq]
  refine ⟨⟨hword.clean.1, hchars⟩, hunblank, htrimmed, ?_, ?_⟩
  · dsimp only
  · dsimp only
    exact fun n => SemanticType.text_of_length

theorem OfTable.name_eq {key : String} {value : Json} {t : Table} (h : OfTable key value t) :
    Identifier.HasWordChar key ∧ t.name = Identifier.cleaned key := by
  obtain ⟨hname, -, -⟩ := h
  exact ⟨hname, rfl⟩

/-- A column of a declared table was declared. -/
theorem OfTable.exists_of_column {key : String} {value : Json} {t : Table} (h : OfTable key value t)
    {c : Column} (hc : c ∈ t.columns) : ∃ key declaration, OfColumn key declaration c := by
  obtain ⟨-, -, hcolumns⟩ := h
  obtain ⟨member, -, hmember⟩ := exists_of_forall₂ hcolumns c hc
  exact ⟨_, _, hmember⟩

/-- A table of a declared schema was declared. -/
theorem OfSchema.exists_of_table {document : Json} {schema : Schema} (h : OfSchema document schema)
    {t : Table} (ht : t ∈ schema.tables) : ∃ key value, OfTable key value t := by
  obtain ⟨-, htables⟩ := h
  obtain ⟨member, -, hmember⟩ := exists_of_forall₂ htables t ht
  exact ⟨_, _, hmember⟩

/-- If this fails, then for an invalid schema. -/
def FailsAsSchema {α : Type} (r : Except BuildError α) : Prop :=
  ∀ e, r = .error e → ∃ fault, e = .invalidSchema fault

theorem column_fails (key : String) (declaration : Json) :
    FailsAsSchema (column key declaration) := by
  intro e h
  unfold column at h
  rcases except_bind_error h with h | ⟨members, -, h⟩
  · cases declaration with
    | null | object => cases h
    | _ =>
        cases h
        exact ⟨_, rfl⟩
  rcases except_bind_error h with h | ⟨s, -, h⟩
  · unfold typeOf at h
    split at h <;> cases h
    exact ⟨_, rfl⟩
  · split at h
    · cases h
    · cases h
      exact ⟨_, rfl⟩

theorem table_fails (key : String) (value : Json) : FailsAsSchema (table key value) := by
  intro e h
  rw [table_eq] at h
  split at h
  · cases h
    exact ⟨_, rfl⟩
  split at h
  · rcases except_bind_error h with h | ⟨_, -, h⟩
    · obtain ⟨member, -, h⟩ := map_m_error h
      exact column_fails _ _ e h
    · cases h
  · cases h
    exact ⟨_, rfl⟩

end Declaration

namespace Schema

open Declaration

theorem of_json_fails (document : Json) : FailsAsSchema (ofJson document) := by
  intro e h
  unfold ofJson at h
  split at h
  · cases h
    exact ⟨_, rfl⟩
  · rcases except_bind_error h with h | ⟨_, -, h⟩
    · obtain ⟨member, -, h⟩ := map_m_error h
      exact table_fails _ _ e h
    · cases h
  · cases h
    exact ⟨_, rfl⟩

/-- The tables of a schema that was read from a document have clean names. -/
theorem clean_of_of_json {document : Json} {schema : Schema} (h : ofJson document = .ok schema) :
    ∀ table ∈ schema.tables, Identifier.IsClean table.name := by
  intro table htable
  obtain ⟨key, value, hdeclared⟩ := (of_json_iff.mp h).exists_of_table htable
  obtain ⟨hword, hname⟩ := hdeclared.name_eq
  rw [hname]
  exact hword.clean

/-- The declared columns of a schema that was read from a document have clean names. -/
theorem clean_columns_of_of_json {document : Json} {schema : Schema}
    (h : ofJson document = .ok schema) :
    ∀ table ∈ schema.tables, ∀ c ∈ table.columns, Identifier.IsClean c.name := by
  intro table htable c hc
  obtain ⟨key, value, hdeclared⟩ := (of_json_iff.mp h).exists_of_table htable
  obtain ⟨key', declaration, hcolumn⟩ := hdeclared.exists_of_column hc
  obtain ⟨hword, hname⟩ := hcolumn.name_eq
  rw [hname]
  exact hword.clean

/-- A text is accepted if it is a document that is, and so is a file with this text. -/
theorem of_text_iff {text : String} {schema : Schema} : ofText text = .ok schema ↔
    ∃ document, Json.parse? text = some document ∧ OfSchema document schema := by
  unfold ofText
  split <;> simp [*, of_json_iff]

theorem of_file_iff {text : String} {schema : Schema} : ofFile (.ok text) = .ok schema ↔
    ∃ document, Json.parse? text = some document ∧ OfSchema document schema := by
  have hlift : ∀ r : Except BuildError Schema, liftBuild r = .ok schema ↔ r = .ok schema := by
    rintro (e | s) <;> simp [liftBuild]
  unfold ofFile
  dsimp only
  split <;> simp [*, of_json_iff]

/-- Documents are accepted as schemas exactly by the grammar. A document is accepted just if it has
the shape of a schema, and gives the schema that it declares: a table for each of its members and a
column for each of theirs, in the order of the document, under cleaned names and with the declared
definitions. All these columns are sound. Every other document is refused as an invalid schema, and
so is every other text. From a text and from a file with this text the same schemas are read, those
that it declares as a document. -/
theorem descriptions_accepted_by_grammar (document : Json) :
    ((∃ schema, ofJson document = .ok schema) ↔ IsSchema document) ∧
    (∀ schema, ofJson document = .ok schema ↔ OfSchema document schema) ∧
    (∀ schema, ofJson document = .ok schema → ∀ t ∈ schema.tables, ∀ c ∈ t.columns, c.Sound) ∧
    FailsAsSchema (ofJson document) ∧
    ∀ text, FailsAsSchema (ofText text) ∧
      ∀ schema,
        (ofText text = .ok schema ↔
          ∃ parsed, Json.parse? text = some parsed ∧ OfSchema parsed schema) ∧
        (ofFile (.ok text) = .ok schema ↔ ofText text = .ok schema) := by
  refine ⟨?_, fun schema => of_json_iff, fun schema h t ht c hc => ?_, of_json_fails document,
    fun text => ⟨?_, fun schema => ⟨of_text_iff, ?_⟩⟩⟩
  · simp only [of_json_iff, exists_schema]
  · obtain ⟨key, value, htable⟩ := (of_json_iff.mp h).exists_of_table ht
    obtain ⟨key', declaration, hcolumn⟩ := htable.exists_of_column hc
    exact hcolumn.sound
  · intro e h
    unfold ofText at h
    split at h
    · exact of_json_fails _ e h
    · cases h
      exact ⟨_, rfl⟩
  · rw [of_file_iff, of_text_iff]

end Schema

end SchemaKeeper

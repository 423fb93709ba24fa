import SchemaKeeper.Json.Value

/-!
# Why a statement or a schema cannot be built

Building a statement or reading a document fails for one of three kinds of reason: a name with
nothing left after cleaning, a value of the wrong shape, or a schema description that breaks its
rules. Each cause is a constructor, and `message` gives its one wording.
-/

namespace SchemaKeeper

/-- Values that do not have the shape the request needs. -/
inductive ValueFault where
  /-- A document value that is neither text nor number where a scalar is needed. -/
  | notScalar (found : Json.Kind)
  | notAssignments (found : Json.Kind)
  /-- A fault in the value of one column. -/
  | inColumn (column : String) (fault : ValueFault)
  | notFilter (found : Json.Kind)
  /-- A conjunction key whose value is no group. -/
  | groupExpected (key : String)
  /-- A column key whose value is a group. -/
  | groupUnexpected (key : String)
  | notLimit (found : Json.Kind)
  | limitTooLong
  | nothingToInsert
  | nothingToUpdate
  deriving DecidableEq, Repr

/-- The wording of a value fault. -/
def ValueFault.message : ValueFault → String
  | .notScalar found => "expected a string, integer or float, got " ++ found.phrase
  | .notAssignments found => "expected an object of column values, got " ++ found.phrase
  | .inColumn column fault => "column '" ++ column ++ "': " ++ fault.message
  | .notFilter found => "where must be an object, got " ++ found.phrase
  | .groupExpected key => "'" ++ key ++ "' must hold a nested group"
  | .groupUnexpected key => "column '" ++ key ++ "' cannot hold a nested group"
  | .notLimit found => "limit must be a non-negative integer, got " ++ found.phrase
  | .limitTooLong => "limit takes at most two elements"
  | .nothingToInsert => "insert needs at least one value"
  | .nothingToUpdate => "update needs at least one value"

/-- The wording for a name that cleaning leaves empty. -/
def emptyIdentifierMessage (raw : String) : String :=
  "identifier '" ++ raw ++ "' is empty after sanitization"

/-- Schema descriptions that break the rules. -/
inductive SchemaFault where
  | notJson
  | notTables (found : Json.Kind)
  | noTables
  | tableName (table : String)
  | noColumns (table : String)
  | columnNotObject (column : String) (found : Json.Kind)
  | typeNotText (column : String) (found : Json.Kind)
  | columnName (column : String)
  deriving DecidableEq, Repr

/-- The wording of a schema fault. -/
def SchemaFault.message : SchemaFault → String
  | .notJson => "not valid JSON"
  | .notTables found => "expected an object of tables, got " ++ found.phrase
  | .noTables => "no tables declared"
  | .tableName table => "invalid table name '" ++ table ++ "'"
  | .noColumns table => "table '" ++ table ++ "' must declare at least one column"
  | .columnNotObject column found =>
    "column '" ++ column ++ "' must be an object, got " ++ found.phrase
  | .typeNotText column found =>
    "column '" ++ column ++ "': type must be a string, got " ++ found.phrase
  | .columnName column => "column '" ++ column ++ "': " ++ emptyIdentifierMessage column

/-- Why building failed. -/
inductive BuildError where
  | emptyIdentifier (raw : String)
  | valueShape (fault : ValueFault)
  | invalidSchema (fault : SchemaFault)
  deriving DecidableEq, Repr

/-- The wording of a build error. -/
def BuildError.message : BuildError → String
  | .emptyIdentifier raw => emptyIdentifierMessage raw
  | .valueShape fault => "invalid value: " ++ fault.message
  | .invalidSchema fault => "invalid schema description: " ++ fault.message

/-- What a successful pass over a list gives comes from its elements one by one. -/
theorem mem_of_map_m_ok {ε α β : Type} {f : α → Except ε β} {items : List α} {results : List β}
    (h : items.mapM f = .ok results) : ∀ b ∈ results, ∃ a ∈ items, f a = .ok b := by
  induction items generalizing results with
  | nil =>
      cases h
      exact List.forall_mem_nil _
  | cons a rest ih =>
      rw [List.mapM_cons] at h
      cases hfirst : f a with
      | error e =>
          rw [hfirst] at h
          cases h
      | ok b =>
          rw [hfirst] at h
          cases hrest : rest.mapM f with
          | error e =>
              rw [hrest] at h
              cases h
          | ok bs =>
              rw [hrest] at h
              cases h
              refine List.forall_mem_cons.mpr ⟨⟨a, List.mem_cons_self, hfirst⟩, fun b hb => ?_⟩
              obtain ⟨a', ha', hb'⟩ := ih hrest b hb
              exact ⟨a', List.mem_cons_of_mem _ ha', hb'⟩

end SchemaKeeper

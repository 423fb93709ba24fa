import SchemaKeeper.Fault

/-!
# Identifiers

A name enters a statement only after cleaning: of the characters given, the ASCII letters, digits,
underscores and points are kept. A name of which nothing is kept is refused.
-/

namespace SchemaKeeper.Identifier

/-- The characters that names in statements are made of. -/
def isNameChar (c : Char) : Bool := c.isAlphanum || c == '_' || c == '.'

/-- The characters of a raw name that are kept. -/
def keep (raw : List Char) : List Char := raw.filter isNameChar

/-- A nonempty word of name characters. -/
def IsClean (name : String) : Prop := name ≠ "" ∧ ∀ c ∈ name.toList, isNameChar c

-- Spelled out, as a search may settle on deciding for every character there is.
instance (name : String) : Decidable (IsClean name) :=
  @instDecidableAnd _ _ _ (List.decidableBAll (fun c => isNameChar c) name.toList)

/-- The name that a raw one stands for in statements. -/
def sanitize (raw : String) : Except BuildError String :=
  let kept := keep raw.toList
  if kept.isEmpty then .error (.emptyIdentifier raw) else .ok (String.ofList kept)

/-- A name that cleaning gives is clean. -/
theorem is_clean_of_sanitize {raw name : String} (h : sanitize raw = .ok name) : IsClean name := by
  unfold sanitize at h
  dsimp only at h
  cases hempty : (keep raw.toList).isEmpty with
  | true =>
      rw [hempty] at h
      cases h
  | false =>
      rw [hempty] at h
      cases h
      constructor
      · intro hnil
        rw [← String.toList_eq_nil_iff, String.toList_ofList] at hnil
        rw [hnil] at hempty
        cases hempty
      · intro c hc
        rw [String.toList_ofList] at hc
        exact (List.mem_filter.mp hc).2

/-- Cleaning leaves a clean name as it is. -/
theorem sanitize_clean {name : String} (h : IsClean name) : sanitize name = .ok name := by
  have hkeep : keep name.toList = name.toList := List.filter_eq_self.mpr h.2
  have hne : name.toList ≠ [] := fun hnil => h.1 (String.toList_eq_nil_iff.mp hnil)
  rw [sanitize, hkeep]
  simp [hne]

/-- The columns that every table has and that no declaration governs. -/
def reservedColumns : List String := ["id", "created_at", "updated_at"]

/-- The name is one of the reserved columns. -/
def isReserved (column : String) : Bool := reservedColumns.contains column

end SchemaKeeper.Identifier

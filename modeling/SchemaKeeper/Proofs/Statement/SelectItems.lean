import SchemaKeeper.Proofs.Schema.Grammar
import SchemaKeeper.Proofs.Statement.Aggregates

/-!
# Items of select lists

A select list has one item for each entry. `SelectItem.IsItem` are the shapes that items have, none
of which has a comma in it, so that a list that is split at its separators falls into the items
again: `SelectItem.one_item_each` says that these are the items of the entries, each one that of its
own entry, and that a list fails just if one of its entries does.
-/

namespace SchemaKeeper

namespace Text

variable {piece rest : List Char}

/-- The pieces of a text between the separators, a comma and a blank each. -/
def splitAtCommas : List Char → List (List Char)
  | [] => [[]]
  | ',' :: ' ' :: rest => [] :: splitAtCommas rest
  | c :: rest => (splitAtCommas rest).modifyHead (c :: ·)

/-- What a text lists. -/
def listed (text : String) : List String := (splitAtCommas text.toList).map String.ofList

theorem split_cons {c : Char} (h : c ≠ ',') :
    splitAtCommas (c :: rest) = (splitAtCommas rest).modifyHead (c :: ·) := by
  rw [splitAtCommas]
  rintro _ rfl
  exact absurd rfl h

/-- A text without commas is one piece. -/
theorem split_plain (h : ',' ∉ piece) : splitAtCommas piece = [piece] := by
  induction piece with
  | nil => rfl
  | cons c piece ih =>
      rw [List.mem_cons, not_or] at h
      rw [split_cons (Ne.symm h.1), ih h.2, List.modifyHead_cons]

/-- A piece without commas is split off. -/
theorem split_append (h : ',' ∉ piece) :
    splitAtCommas (piece ++ ',' :: ' ' :: rest) = piece :: splitAtCommas rest := by
  induction piece with
  | nil => rfl
  | cons c piece ih =>
      rw [List.mem_cons, not_or] at h
      rw [List.cons_append, split_cons (Ne.symm h.1), ih h.2, List.modifyHead_cons]

theorem intercalate_cons {piece next : String} {pieces : List String} :
    (", ".intercalate (piece :: next :: pieces)).toList =
      piece.toList ++ ',' :: ' ' :: (", ".intercalate (next :: pieces)).toList := by
  rw [String.intercalate_cons_cons, String.toList_append, String.toList_append, List.append_assoc]
  rfl

/-- Pieces without commas are what their list lists. -/
theorem listed_intercalate {pieces : List String} (hne : pieces ≠ [])
    (h : ∀ piece ∈ pieces, ',' ∉ piece.toList) : listed (", ".intercalate pieces) = pieces := by
  induction pieces with
  | nil => exact absurd rfl hne
  | cons piece pieces ih =>
      obtain ⟨hpiece, hpieces⟩ := List.forall_mem_cons.mp h
      cases pieces with
      | nil =>
          rw [String.intercalate_singleton, listed, split_plain hpiece, List.map_singleton,
            String.ofList_toList]
      | cons next pieces =>
          have hrest := ih (List.cons_ne_nil next pieces) hpieces
          rw [listed, intercalate_cons, split_append hpiece, List.map_cons, String.ofList_toList]
          exact congrArg (piece :: ·) hrest

end Text

namespace SelectItem

variable {entry text : String} {entries items : List String} {item : SelectItem}

/-- A word that calls something: no blank, comma, quote or parenthesis is in it. -/
def IsCallWord (word : String) : Prop :=
  word ≠ "" ∧ ∀ c ∈ word.toList, Text.isBlank c = false ∧ c ∉ [',', '\'', '"', '`', '(', ')']

-- Spelled out, as for clean names.
instance (word : String) : Decidable (IsCallWord word) :=
  @instDecidableAnd _ _ _ (List.decidableBAll _ word.toList)

/-- The shapes of items: a star, a name, a name with an alias, and a call with an alias. -/
inductive IsItem : String → Prop where
  | star : IsItem "*"
  | name {name : String} (hname : Identifier.IsClean name) : IsItem name
  | aliased {name label : String} (hname : Identifier.IsClean name)
      (hlabel : Identifier.IsClean label) : IsItem (name ++ " AS '" ++ label ++ "'")
  | call {word argument label : String} (hword : IsCallWord word)
      (hargument : argument = "*" ∨ Identifier.IsClean argument)
      (hlabel : Identifier.IsClean label) :
      IsItem (word ++ "(" ++ argument ++ ") AS '" ++ label ++ "'")

/-- What is written of an item. -/
inductive Written : SelectItem → String → Prop where
  | star : Written .star "*"
  | aggregate {function rawLabel : List Char} {argument : Option (List Char)} {inner label : String}
      (hinner : inner = "*" ∨ Identifier.IsClean inner) (hlabel : Identifier.IsClean label) :
      Written (.aggregate function argument rawLabel)
        (Text.asciiUpper (String.ofList function) ++ "(" ++ inner ++ ") AS '" ++ label ++ "'")
  | aliased {rawName rawLabel : List Char} {name label : String}
      (hname : Identifier.IsClean name) (hlabel : Identifier.IsClean label) :
      Written (.aliased rawName rawLabel) (name ++ " AS '" ++ label ++ "'")
  | column {raw name : String} (hname : Identifier.IsClean name) : Written (.column raw) name

theorem written_of_text (h : item.text = .ok text) : Written item text := by
  cases item with
  | star =>
      cases h
      exact .star
  | aggregate function argument rawLabel =>
      unfold SelectItem.text at h
      cases argument with
      | none =>
          obtain ⟨inner, hinner, h⟩ := except_bind_ok_iff.mp h
          obtain ⟨label, hlabel, h⟩ := except_bind_ok_iff.mp h
          cases hinner
          obtain rfl := Except.ok.inj h
          exact .aggregate (.inl rfl) (Identifier.is_clean_of_sanitize hlabel)
      | some raw =>
          obtain ⟨inner, hinner, h⟩ := except_bind_ok_iff.mp h
          obtain ⟨label, hlabel, h⟩ := except_bind_ok_iff.mp h
          obtain rfl := Except.ok.inj h
          exact .aggregate (.inr (Identifier.is_clean_of_sanitize hinner))
            (Identifier.is_clean_of_sanitize hlabel)
  | aliased rawName rawLabel =>
      unfold SelectItem.text at h
      obtain ⟨name, hname, h⟩ := except_bind_ok_iff.mp h
      obtain ⟨label, hlabel, h⟩ := except_bind_ok_iff.mp h
      obtain rfl := Except.ok.inj h
      exact .aliased (Identifier.is_clean_of_sanitize hname)
        (Identifier.is_clean_of_sanitize hlabel)
  | column raw => exact .column (Identifier.is_clean_of_sanitize h)

/-- The names of the aggregates call something, the one with a long s too. -/
theorem IsAggregateName.call_word {function : List Char} (h : IsAggregateName function) :
    IsCallWord (Text.asciiUpper (String.ofList function)) := by
  have hwords : ∀ word ∈ "\u017fUM" :: writtenNames, IsCallWord word := by decide
  exact hwords _ h.mem_written

/-- The item of an entry has one of the shapes. -/
theorem is_item_of_entry (h : (ofEntry entry).text = .ok text) : IsItem text := by
  generalize hitem : ofEntry entry = item at h
  cases written_of_text h with
  | star => exact .star
  | aggregate hinner hlabel =>
      have hfunction := (of_entry_aggregate_iff.mp hitem).name
      exact .call hfunction.call_word hinner hlabel
  | aliased hname hlabel => exact .aliased hname hlabel
  | column hname => exact .name hname

theorem not_mem_of_clean {name : String} {c : Char} (h : Identifier.IsClean name)
    (hc : Identifier.isNameChar c = false) : c ∉ name.toList :=
  fun hmem => Bool.eq_false_iff.mp hc (h.2 c hmem)

/-- No item has a comma in it. -/
theorem IsItem.no_comma (h : IsItem text) : ',' ∉ text.toList := by
  have hclean {name : String} (hname : Identifier.IsClean name) : ',' ∉ name.toList :=
    not_mem_of_clean hname (by decide)
  cases h with
  | star => decide
  | name hname => exact hclean hname
  | aliased hname hlabel => simp [hclean hname, hclean hlabel]
  | @call word argument label hword hargument hlabel =>
      have hfront : ',' ∉ word.toList := fun hmem => absurd (hword.2 ',' hmem).2 (by decide)
      have hinner : ',' ∉ argument.toList := by
        rcases hargument with rfl | hargument
        · decide
        · exact hclean hargument
      simp [hfront, hinner, hclean hlabel]

/-- The list of one entry is its item. -/
theorem select_list_single : selectList [entry] = (ofEntry entry).text := by
  cases htext : (ofEntry entry).text with
  | error e => simp [selectList, htext]
  | ok text => simp [selectList, htext]

theorem select_list_ok_iff (hne : entries ≠ []) : selectList entries = .ok text ↔
    ∃ items, List.Forall₂ (fun entry item => selectList [entry] = .ok item) entries items ∧
      text = ", ".intercalate items := by
  rw [selectList, if_neg (by simpa using hne), except_bind_ok_iff]
  simp only [select_list_single, ← map_m_ok_iff]
  refine exists_congr fun items => and_congr_right fun _ => ?_
  exact ⟨fun h => by cases h; rfl, by rintro rfl; rfl⟩

/-- A list fails as one of its entries does. -/
theorem select_list_error {e : BuildError} (h : selectList entries = .error e) :
    ∃ entry ∈ entries, selectList [entry] = .error e := by
  have hne : entries ≠ [] := by
    rintro rfl
    cases h
  rw [selectList, if_neg (by simpa using hne)] at h
  rcases except_bind_error h with hitems | ⟨items, -, hend⟩
  · obtain ⟨entry, hentry, hitem⟩ := map_m_error hitems
    exact ⟨entry, hentry, select_list_single.trans hitem⟩
  · cases hend

/-- A select list has one item for each entry, in their order. Each one is that of its own entry and
has one of the shapes of items. A list fails just if one of its entries does, as that one does. -/
theorem one_item_each (entries : List String) :
    (∀ text, entries ≠ [] → selectList entries = .ok text →
      List.Forall₂ (fun entry item => selectList [entry] = .ok item ∧ IsItem item)
        entries (Text.listed text)) ∧
    ((∃ e, selectList entries = .error e) ↔
      ∃ entry ∈ entries, ∃ e, selectList [entry] = .error e) ∧
    ∀ e, selectList entries = .error e → ∃ entry ∈ entries, selectList [entry] = .error e := by
  refine ⟨fun text hne htext => ?_, ⟨fun herror => ?_, fun hentry => ?_⟩,
    fun e => select_list_error⟩
  · obtain ⟨items, hitems, rfl⟩ := (select_list_ok_iff hne).mp htext
    have hshapes : ∀ item ∈ items, IsItem item := fun item hitem => by
      obtain ⟨entry, -, hentry⟩ := exists_of_forall₂ hitems item hitem
      exact is_item_of_entry (select_list_single.symm.trans hentry)
    have hitemsne : items ≠ [] := by
      rintro rfl
      exact hne (List.forall₂_nil_right_iff.mp hitems)
    rw [Text.listed_intercalate hitemsne fun item hitem => (hshapes item hitem).no_comma]
    exact hitems.imp fun entry item hitem =>
      ⟨hitem, is_item_of_entry (select_list_single.symm.trans hitem)⟩
  · obtain ⟨e, he⟩ := herror
    obtain ⟨entry, hentry, hitem⟩ := select_list_error he
    exact ⟨entry, hentry, e, hitem⟩
  · obtain ⟨entry, hentry, e, he⟩ := hentry
    cases hlist : selectList entries with
    | error e' => exact ⟨e', rfl⟩
    | ok text =>
        obtain ⟨items, hitems, -⟩ := (select_list_ok_iff (List.ne_nil_of_mem hentry)).mp hlist
        obtain ⟨item, -, hitem⟩ := exists_of_forall₂ hitems.flip entry hentry
        rw [he] at hitem
        cases hitem

theorem one_item_each_of_report :
    let entries := ["id", "sum( amount ) as total", " * ", "u.name AS author"]
    let items := ["id", "SUM(amount) AS 'total'", "*", "u.name AS 'author'"]
    selectList entries = .ok (", ".intercalate items) ∧
    Text.listed (", ".intercalate items) = items ∧
    List.Forall₂ (fun entry item => selectList [entry] = .ok item ∧ IsItem item) entries items := by
  intro entries items
  have htext : selectList entries = .ok (", ".intercalate items) := by decide +kernel
  have hitems : Text.listed (", ".intercalate items) = items := by decide +kernel
  have heach := (one_item_each entries).1 _ (by decide) htext
  rw [hitems] at heach
  exact ⟨htext, hitems, heach⟩

end SelectItem

end SchemaKeeper

import SchemaKeeper.Proofs.Statement.Lexeme
import SchemaKeeper.Proofs.Statement.SelectItems

/-!
# Calls of select lists

A word is called where it stands in front of a parenthesis. A select list calls what the aggregates
among its entries are called, and nothing else (`SelectItem.calls_list_iff`). These are the four
names, in capitals, but for one spelling: a long s folds to the letter that `SUM` begins with, and
keeps its form when the name is raised. `SelectItem.calls_four_names` says that this spelling is all
that can bring a fifth name, or a character outside ASCII, into a select list.
-/

namespace SchemaKeeper

namespace Text

variable {front rest word other : List Char}

/-- The text calls the word, which is not the end of a longer one. -/
def Calls (text word : List Char) : Prop :=
  ∃ before after, text = before ++ (word ++ '(' :: after) ∧
    (∀ c ∈ word, Lexeme.isWordChar c = true) ∧ ∀ c ∈ before.getLast?, Lexeme.isWordChar c = false

theorem Calls.opened {text : List Char} (h : Calls text word) : '(' ∈ text := by
  obtain ⟨before, after, rfl, -, -⟩ := h
  simp

theorem Calls.subset {text : List Char} (h : Calls text word) : word ⊆ text := by
  obtain ⟨before, after, rfl, -, -⟩ := h
  intro c hc
  simp [hc]

/-- A text with one parenthesis calls the word in front of it. -/
theorem calls_open_iff (hother : ∀ c ∈ other, Lexeme.isWordChar c = true) (hrest : '(' ∉ rest) :
    Calls (other ++ '(' :: rest) word ↔ word = other := by
  constructor
  · rintro ⟨before, after, htext, hword, hbefore⟩
    have hopen : '(' ∉ other := fun hmem => absurd (hother _ hmem) (by decide)
    rw [← List.append_assoc] at htext
    obtain ⟨rfl, -, -⟩ := (List.append_cons_inj_of_notMem hopen hrest).mp htext
    cases hlast : before.getLast? with
    | none => rw [List.getLast?_eq_none_iff.mp hlast, List.nil_append]
    | some c =>
        have hmem : c ∈ before ++ word := List.mem_append_left _ (List.mem_of_getLast? hlast)
        exact absurd (hother c hmem) (Bool.eq_false_iff.mp (hbefore c hlast))
  · rintro rfl
    exact ⟨[], rest, rfl, hother, by simp⟩

/-- What no word has in it separates the calls of a text. -/
theorem calls_append_iff {c : Char} (hc : Lexeme.isWordChar c = false) (hopen : c ≠ '(') :
    Calls (front ++ c :: rest) word ↔ Calls front word ∨ Calls rest word := by
  constructor
  · rintro ⟨before, after, htext, hword, hbefore⟩
    have hmem : c ∉ word := fun hmem => Bool.eq_false_iff.mp hc (hword c hmem)
    -- The separator stands behind the parenthesis or in front of the word, and not between.
    rcases List.append_eq_append_iff.mp htext with ⟨mid, rfl, hrest⟩ | ⟨mid, rfl, hrest⟩
    · cases mid with
      | nil =>
          cases word with
          | nil => exact absurd (List.cons.inj hrest).1 hopen
          | cons d word =>
              obtain ⟨rfl, -⟩ := List.cons.inj hrest
              exact absurd List.mem_cons_self hmem
      | cons d mid =>
          obtain ⟨rfl, rfl⟩ := List.cons.inj hrest
          refine .inr ⟨mid, after, rfl, hword, fun d hd => hbefore d ?_⟩
          rw [List.getLast?_append, List.getLast?_cons, hd]
          rfl
    · rcases List.append_eq_append_iff.mp hrest with ⟨tail, rfl, hafter⟩ | ⟨tail, rfl, hafter⟩
      · cases tail with
        | nil => exact absurd (List.cons.inj hafter).1.symm hopen
        | cons d tail =>
            obtain ⟨rfl, rfl⟩ := List.cons.inj hafter
            exact .inl ⟨before, tail, rfl, hword, hbefore⟩
      · cases tail with
        | nil => exact absurd (List.cons.inj hafter).1 hopen
        | cons d tail =>
            obtain ⟨rfl, rfl⟩ := List.cons.inj hafter
            exact absurd (List.mem_append_right _ List.mem_cons_self) hmem
  · rintro (⟨before, after, rfl, hword, hbefore⟩ | ⟨before, after, rfl, hword, hbefore⟩)
    · exact ⟨before, after ++ c :: rest, by simp, hword, hbefore⟩
    · refine ⟨front ++ c :: before, after, by simp, hword, fun d hd => ?_⟩
      rw [List.getLast?_append, List.getLast?_cons, Option.some_or, Option.mem_some_iff] at hd
      cases hlast : before.getLast? with
      | none =>
          rw [hlast, Option.getD_none] at hd
          exact hd ▸ hc
      | some e =>
          rw [hlast, Option.getD_some] at hd
          exact hd ▸ hbefore e hlast

theorem calls_cons_iff {c : Char} (hc : Lexeme.isWordChar c = false) (hopen : c ≠ '(') :
    Calls (c :: rest) word ↔ Calls rest word := by
  have hnil : ¬ Calls [] word := fun h => List.not_mem_nil h.opened
  rw [← List.nil_append (c :: rest), calls_append_iff hc hopen, or_iff_right hnil]

/-- A list calls what its items call. -/
theorem calls_intercalate_iff {items : List String} :
    Calls (", ".intercalate items).toList word ↔ ∃ item ∈ items, Calls item.toList word := by
  induction items with
  | nil =>
      constructor
      · intro h
        exact absurd h.opened (by decide)
      · rintro ⟨item, hitem, -⟩
        cases hitem
  | cons item items ih =>
      rw [List.exists_mem_cons_iff]
      cases items with
      | nil => simp
      | cons next items =>
          rw [intercalate_cons, calls_append_iff (by decide) (by decide),
            calls_cons_iff (by decide) (by decide), ih]

/-- The characters of a list are those of its items, and those between them. -/
theorem mem_intercalate {items : List String} {c : Char}
    (h : c ∈ (", ".intercalate items).toList) :
    c = ',' ∨ c = ' ' ∨ ∃ item ∈ items, c ∈ item.toList := by
  induction items with
  | nil => cases h
  | cons item items ih =>
      rw [List.exists_mem_cons_iff]
      cases items with
      | nil => exact .inr (.inr (.inl (by simpa using h)))
      | cons next items =>
          rw [intercalate_cons, List.mem_append, List.mem_cons, List.mem_cons] at h
          rcases h with h | rfl | rfl | h
          · exact .inr (.inr (.inl h))
          · exact .inl rfl
          · exact .inr (.inl rfl)
          · exact (ih h).imp_right (Or.imp_right .inr)

theorem ascii_of_all {s : String} (h : s.toList.all (·.toNat < 128) = true) :
    ∀ c ∈ s.toList, c.toNat < 128 :=
  fun c hc => of_decide_eq_true (List.all_eq_true.mp h c hc)

end Text

namespace SelectItem

variable {entry text word : String} {entries : List String}

/-- The word is what an aggregate with a name is called in this entry. -/
def CallsFor (entry word : String) : Prop :=
  ∃ function argument label, IsAggregate entry.toList function argument label ∧
    word = Text.asciiUpper (String.ofList function)

/-- The entry is an aggregate with a name, and its own name is spelled with a long s. -/
def IsLongSum (entry : String) : Prop :=
  ∃ function argument label, IsAggregate entry.toList function argument label ∧
    '\u017f' ∈ function

theorem calls_for_named (h : CallsFor entry word) :
    word ∈ writtenNames ∨ IsLongSum entry ∧ word = "\u017fUM" := by
  obtain ⟨function, argument, label, hform, rfl⟩ := h
  rcases hform.name.written with ⟨-, hword⟩ | ⟨hlong, hword⟩
  · exact .inl hword
  · exact .inr ⟨⟨function, argument, label, hform, hlong⟩, hword⟩

theorem IsLongSum.calls_for (h : IsLongSum entry) : CallsFor entry "\u017fUM" := by
  obtain ⟨function, argument, label, hform, hlong⟩ := h
  rcases hform.name.written with ⟨hplain, -⟩ | ⟨-, hword⟩
  · exact absurd hlong hplain
  · exact ⟨function, argument, label, hform, hword.symm⟩

theorem word_char_of_upper {function : List Char} (h : IsAggregateName function) :
    ∀ c ∈ (Text.asciiUpper (String.ofList function)).toList, Lexeme.isWordChar c = true := by
  have hwords : ("\u017fUM" :: writtenNames).all (·.toList.all Lexeme.isWordChar) = true := by
    decide
  exact List.all_eq_true.mp (List.all_eq_true.mp hwords _ h.mem_written)

/-- An item calls what its entry calls. -/
theorem calls_item_iff (h : (ofEntry entry).text = .ok text) :
    Text.Calls text.toList word.toList ↔ CallsFor entry word := by
  -- An entry of another form calls nothing, and its item has no parenthesis in it.
  have hnone (hopen : '(' ∉ text.toList)
      (hother : ∀ function argument label, ofEntry entry ≠ .aggregate function argument label) :
      Text.Calls text.toList word.toList ↔ CallsFor entry word := by
    refine iff_of_false (fun hcalls => hopen hcalls.opened) ?_
    rintro ⟨function, argument, label, hform, -⟩
    exact hother _ _ _ (of_entry_aggregate_iff.mpr hform)
  have hclean {name : String} (hname : Identifier.IsClean name) : '(' ∉ name.toList :=
    not_mem_of_clean hname (by decide)
  generalize hitem : ofEntry entry = item at h hnone
  cases written_of_text h with
  | star => exact hnone (by decide) (by nofun)
  | @aggregate function rawLabel argument inner label hinner hlabel =>
      have hform := of_entry_aggregate_iff.mp hitem
      have htail : '(' ∉ inner.toList ++ (") AS '" ++ label ++ "'").toList := by
        have hopen : '(' ∉ inner.toList := by
          rcases hinner with rfl | hinner
          · decide
          · exact hclean hinner
        simp [hopen, hclean hlabel]
      have htext : (Text.asciiUpper (String.ofList function) ++ "(" ++ inner ++ ") AS '" ++ label ++
          "'").toList = (Text.asciiUpper (String.ofList function)).toList ++
            '(' :: (inner.toList ++ (") AS '" ++ label ++ "'").toList) := by
        simp
      rw [htext, Text.calls_open_iff (word_char_of_upper hform.name) htail, String.toList_inj]
      constructor
      · rintro rfl
        exact ⟨function, argument, rawLabel, hform, rfl⟩
      · rintro ⟨function', argument', label', hform', rfl⟩
        rw [← of_entry_aggregate_iff, hitem] at hform'
        cases hform'
        rfl
  | aliased hname hlabel =>
      exact hnone (by simp [hclean hname, hclean hlabel]) (by nofun)
  | column hname => exact hnone (hclean hname) (by nofun)

/-- A select list calls what its entries call, and nothing else. -/
theorem calls_list_iff (h : selectList entries = .ok text) :
    Text.Calls text.toList word.toList ↔ ∃ entry ∈ entries, CallsFor entry word := by
  by_cases hne : entries = []
  · subst hne
    cases h
    refine iff_of_false (fun hcalls => absurd hcalls.opened (by decide)) ?_
    rintro ⟨entry, hentry, -⟩
    cases hentry
  · obtain ⟨items, hitems, rfl⟩ := (select_list_ok_iff hne).mp h
    rw [Text.calls_intercalate_iff]
    constructor
    · rintro ⟨item, hitem, hcalls⟩
      obtain ⟨entry, hentry, htext⟩ := exists_of_forall₂ hitems item hitem
      exact ⟨entry, hentry, (calls_item_iff (select_list_single.symm.trans htext)).mp hcalls⟩
    · rintro ⟨entry, hentry, hcalls⟩
      obtain ⟨item, hitem, htext⟩ := exists_of_forall₂ hitems.flip entry hentry
      exact ⟨item, hitem, (calls_item_iff (select_list_single.symm.trans htext)).mpr hcalls⟩

theorem ascii_of_clean {name : String} (h : Identifier.IsClean name) :
    ∀ c ∈ name.toList, c.toNat < 128 := by
  have hbelow {c last : Char} (hle : c ≤ last) (hlast : last.toNat < 128) : c.toNat < 128 :=
    Nat.lt_of_le_of_lt hle hlast
  intro c hc
  have hkind := (Identifier.is_name_char_iff c).mp (h.2 c hc)
  rcases hkind with ⟨-, hle⟩ | ⟨-, hle⟩ | ⟨-, hle⟩ | rfl | rfl
  · exact hbelow hle (by decide)
  · exact hbelow hle (by decide)
  · exact hbelow hle (by decide)
  · decide
  · decide

theorem called_chars (h : CallsFor entry word) :
    ∀ c ∈ word.toList, c.toNat < 128 ∨ c = '\u017f' ∧ IsLongSum entry := by
  rcases calls_for_named h with hword | ⟨hlong, rfl⟩
  · have hnames : writtenNames.all (·.toList.all (·.toNat < 128)) = true := by decide
    have hascii := Text.ascii_of_all (List.all_eq_true.mp hnames word hword)
    exact fun c hc => .inl (hascii c hc)
  · have hrest : ∀ c ∈ "UM".toList, c.toNat < 128 := Text.ascii_of_all (by decide)
    exact List.forall_mem_cons.mpr ⟨.inr ⟨rfl, hlong⟩, fun c hc => .inl (hrest c hc)⟩

/-- The only character outside ASCII in an item is the long s of an aggregate's name. -/
theorem item_chars (h : (ofEntry entry).text = .ok text) :
    ∀ c ∈ text.toList, c.toNat < 128 ∨ c = '\u017f' ∧ IsLongSum entry := by
  have hclean {name : String} (hname : Identifier.IsClean name) :
      ∀ c ∈ name.toList, c.toNat < 128 ∨ c = '\u017f' ∧ IsLongSum entry :=
    fun c hc => .inl (ascii_of_clean hname c hc)
  have hmarks {marks : String} (hmarks : marks.toList.all (·.toNat < 128) = true) :
      ∀ c ∈ marks.toList, c.toNat < 128 ∨ c = '\u017f' ∧ IsLongSum entry :=
    fun c hc => .inl (Text.ascii_of_all hmarks c hc)
  generalize hitem : ofEntry entry = item at h
  cases written_of_text h with
  | star => exact hmarks (by decide)
  | @aggregate function rawLabel argument inner label hinner hlabel =>
      have hform := of_entry_aggregate_iff.mp hitem
      have hword := called_chars ⟨function, argument, rawLabel, hform, rfl⟩
      have hargument : ∀ c ∈ inner.toList, c.toNat < 128 ∨ c = '\u017f' ∧ IsLongSum entry := by
        rcases hinner with rfl | hinner
        · exact hmarks (by decide)
        · exact hclean hinner
      simp only [String.toList_append, List.forall_mem_append]
      exact ⟨⟨⟨⟨⟨hword, hmarks (by decide)⟩, hargument⟩, hmarks (by decide)⟩, hclean hlabel⟩,
        hmarks (by decide)⟩
  | aliased hname hlabel =>
      simp only [String.toList_append, List.forall_mem_append]
      exact ⟨⟨⟨hclean hname, hmarks (by decide)⟩, hclean hlabel⟩, hmarks (by decide)⟩
  | column hname => exact hclean hname

/-- The only character outside ASCII in a select list is that of its entries' aggregates. -/
theorem list_chars (h : selectList entries = .ok text) :
    ∀ c ∈ text.toList, c.toNat < 128 ∨ c = '\u017f' ∧ ∃ entry ∈ entries, IsLongSum entry := by
  intro c hc
  by_cases hne : entries = []
  · subst hne
    cases h
    rw [List.mem_singleton.mp hc]
    exact .inl (by decide)
  · obtain ⟨items, hitems, rfl⟩ := (select_list_ok_iff hne).mp h
    rcases Text.mem_intercalate hc with rfl | rfl | ⟨item, hitem, hmem⟩
    · exact .inl (by decide)
    · exact .inl (by decide)
    · obtain ⟨entry, hentry, htext⟩ := exists_of_forall₂ hitems item hitem
      exact (item_chars (select_list_single.symm.trans htext) c hmem).imp_right
        (And.imp_right fun hlong => ⟨entry, hentry, hlong⟩)

/-- A select list calls the four aggregates only and is in ASCII, unless one of its entries spells
an aggregate with a long s. Each such entry adds a call of a fifth name, and the long s of that name
is the only character outside ASCII. -/
theorem calls_four_names (h : selectList entries = .ok text) :
    (∀ word : String, Text.Calls text.toList word.toList →
      word ∈ writtenNames ∨ word = "\u017fUM") ∧
    (∀ c ∈ text.toList, c.toNat < 128 ∨ c = '\u017f') ∧
    ((∀ word : String, Text.Calls text.toList word.toList → word ∈ writtenNames) ↔
      ∀ entry ∈ entries, ¬ IsLongSum entry) ∧
    ((∀ c ∈ text.toList, c.toNat < 128) ↔ ∀ entry ∈ entries, ¬ IsLongSum entry) := by
  have hlong (entry : String) (hentry : entry ∈ entries) (hlong : IsLongSum entry) :
      Text.Calls text.toList "\u017fUM".toList :=
    (calls_list_iff h).mpr ⟨entry, hentry, hlong.calls_for⟩
  refine ⟨fun word hcalls => ?_, fun c hc => (list_chars h c hc).imp_right And.left,
    ⟨fun hnames entry hentry hsum => ?_, fun hnone word hcalls => ?_⟩,
    ⟨fun hascii entry hentry hsum => ?_, fun hnone c hc => ?_⟩⟩
  · obtain ⟨entry, -, hfor⟩ := (calls_list_iff h).mp hcalls
    exact (calls_for_named hfor).imp_right And.right
  · exact absurd (hnames _ (hlong entry hentry hsum)) (by decide)
  · obtain ⟨entry, hentry, hfor⟩ := (calls_list_iff h).mp hcalls
    exact (calls_for_named hfor).resolve_right fun hsum => hnone entry hentry hsum.1
  · have hmem := (hlong entry hentry hsum).subset List.mem_cons_self
    exact absurd (hascii _ hmem) (by decide)
  · refine (list_chars h c hc).resolve_right ?_
    rintro ⟨-, entry, hentry, hsum⟩
    exact hnone entry hentry hsum

theorem report_calls_total :
    let text := "id, SUM(amount) AS 'total'"
    selectList ["id", "sum( amount ) as total"] = .ok text ∧
    (∀ word : String, Text.Calls text.toList word.toList → word ∈ writtenNames) ∧
    ∀ c ∈ text.toList, c.toNat < 128 := by
  intro text
  have htext : selectList ["id", "sum( amount ) as total"] = .ok text := by decide +kernel
  have hascii : ∀ c ∈ text.toList, c.toNat < 128 := Text.ascii_of_all (by decide +kernel)
  obtain ⟨-, -, hnames, hplain⟩ := calls_four_names htext
  exact ⟨htext, hnames.mpr (hplain.mp hascii), hascii⟩

theorem long_sum_called :
    let text := "\u017fUM(amount) AS 'total'"
    selectList ["\u017fum(amount) AS total"] = .ok text ∧
    (Text.Calls text.toList "\u017fUM".toList ∧ "\u017fUM" ∉ writtenNames) ∧
    ∃ c ∈ text.toList, 128 ≤ c.toNat := by
  intro text
  have htext : selectList ["\u017fum(amount) AS total"] = .ok text := by decide +kernel
  have hword : "\u017fUM".toList.all Lexeme.isWordChar = true := by decide
  have hcalls : Text.Calls text.toList "\u017fUM".toList :=
    ⟨[], "amount) AS 'total'".toList, by decide +kernel, List.all_eq_true.mp hword, by simp⟩
  exact ⟨htext, ⟨hcalls, by decide⟩, '\u017f', hcalls.subset List.mem_cons_self, by decide⟩

end SelectItem

end SchemaKeeper

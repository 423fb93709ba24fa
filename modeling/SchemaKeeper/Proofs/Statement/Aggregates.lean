import Mathlib
import SchemaKeeper.Proofs.Statement.Grammar
import SchemaKeeper.Query.SelectList

/-!
# Aggregates of select lists

An entry of a select list asks for an aggregate if it has the form `FUNC(column) AS alias`.
`SelectItem.IsAggregate` spells this form out, without the order in which an entry is taken apart,
and `SelectItem.of_entry_aggregate_iff` shows that just the entries of this form are read as ones.
The letters of the function's name are those of one of the four names, up to their case and to the
two characters outside ASCII that fold to Latin letters.
-/

namespace SchemaKeeper

namespace Text

variable {s : List Char} {words : List (List Char)}

/-- The words of a text, in order: blanks end each one, and may stand in front of the first. -/
inductive HasFields : List Char → List (List Char) → Prop where
  | none {blanks : List Char} (hblanks : ∀ c ∈ blanks, isBlank c = true) : HasFields blanks []
  | word {lead word rest : List Char} {words : List (List Char)}
      (hlead : ∀ c ∈ lead, isBlank c = true) (hne : word ≠ [])
      (hword : ∀ c ∈ word, isBlank c = false) (hend : ∀ c ∈ rest.head?, isBlank c = true)
      (hrest : HasFields rest words) : HasFields (lead ++ (word ++ rest)) (word :: words)

theorem fields_blank {c : Char} (h : isBlank c = true) : fields (c :: s) = fields s := by
  rw [fields, if_pos h]

theorem fields_blanks {blanks : List Char} (h : ∀ c ∈ blanks, isBlank c = true) :
    fields (blanks ++ s) = fields s := by
  induction blanks with
  | nil => rfl
  | cons c blanks ih =>
      obtain ⟨hc, hblanks⟩ := List.forall_mem_cons.mp h
      rw [List.cons_append, fields_blank hc, ih hblanks]

/-- A word that ends here is the first field. -/
theorem fields_word {word rest : List Char} (hne : word ≠ [])
    (hword : ∀ c ∈ word, isBlank c = false) (hend : ∀ c ∈ rest.head?, isBlank c = true) :
    fields (word ++ rest) = word :: fields rest := by
  induction word with
  | nil => exact absurd rfl hne
  | cons c word ih =>
      obtain ⟨hc, hword⟩ := List.forall_mem_cons.mp hword
      cases word with
      | nil =>
          have hstop : (rest.head?.map isBlank).getD true = true := by
            cases hhead : rest.head? with
            | none => rfl
            | some d => exact hend d hhead
          rw [List.cons_append, List.nil_append, fields, if_neg (by simp [hc]), if_pos hstop]
      | cons d word =>
          have hd : isBlank d = false := (List.forall_mem_cons.mp hword).1
          rw [List.cons_append, fields, if_neg (by simp [hc]), if_neg (by simp [hd]),
            ih (List.cons_ne_nil d word) hword]

theorem HasFields.cons_blank {c : Char} (hc : isBlank c = true) (h : HasFields s words) :
    HasFields (c :: s) words := by
  cases h with
  | none hblanks => exact .none (List.forall_mem_cons.mpr ⟨hc, hblanks⟩)
  | @word lead word rest words hlead hne hword hend hrest =>
      rw [← List.cons_append]
      exact .word (List.forall_mem_cons.mpr ⟨hc, hlead⟩) hne hword hend hrest

theorem HasFields.cons_word {c : Char} (hc : isBlank c = false)
    (hs : ∀ d ∈ s.head?, isBlank d = true) (h : HasFields s words) :
    HasFields (c :: s) ([c] :: words) := by
  have hblank : ∀ d ∈ [c], isBlank d = false := List.forall_mem_singleton.mpr hc
  exact .word (List.forall_mem_nil _) (List.cons_ne_nil c []) hblank hs h

/-- A word whose first letter is left out is the first one, if blanks do not follow at once. -/
theorem HasFields.extend {c d : Char} {word : List Char} (hc : isBlank c = false)
    (hd : isBlank d = false) (h : HasFields (d :: s) (word :: words)) :
    HasFields (c :: d :: s) ((c :: word) :: words) := by
  generalize htext : d :: s = text at h
  cases h with
  | @word lead word rest words hlead hne hword hend hrest =>
      cases lead with
      | nil =>
          have hlonger : ∀ e ∈ c :: word, isBlank e = false := List.forall_mem_cons.mpr ⟨hc, hword⟩
          exact .word (List.forall_mem_nil _) (List.cons_ne_nil c word) hlonger hend hrest
      | cons b lead =>
          cases htext
          have hblank := (List.forall_mem_cons.mp hlead).1
          rw [hd] at hblank
          cases hblank

/-- Every text has its fields. -/
theorem has_fields (s : List Char) : HasFields s (fields s) := by
  fun_induction fields s with
  | case1 => exact .none (List.forall_mem_nil _)
  | case2 c rest hc ih => exact ih.cons_blank hc
  | case3 c rest hc hend ih =>
      refine ih.cons_word (Bool.eq_false_iff.mpr hc) fun d hd => ?_
      rwa [hd] at hend
  | case4 c rest hc hgo hnone ih =>
      rw [hnone] at ih
      cases ih with
      | none hblanks =>
          cases rest with
          | nil => exact absurd rfl hgo
          | cons d rest => exact absurd (hblanks d List.mem_cons_self) hgo
  | case5 c rest hc hgo word words hwords ih =>
      cases rest with
      | nil => exact absurd rfl hgo
      | cons d rest =>
          rw [hwords] at ih
          exact ih.extend (Bool.eq_false_iff.mpr hc) (Bool.eq_false_iff.mpr hgo)

theorem fields_iff : HasFields s words ↔ fields s = words := by
  constructor
  · intro h
    induction h with
    | none hblanks =>
        have hnone := fields_blanks (s := []) hblanks
        rwa [List.append_nil] at hnone
    | word hlead hne hword hend _ ih => rw [fields_blanks hlead, fields_word hne hword hend, ih]
  · rintro rfl
    exact has_fields s

/-- What is no blank is not trimmed off. -/
theorem Trims.mem {trimmed : List Char} (h : Trims s trimmed) {c : Char} (hc : c ∈ s)
    (hblank : isBlank c = false) : c ∈ trimmed := by
  obtain ⟨⟨lead, trail, rfl, hlead, htrail⟩, -, -⟩ := h
  rcases List.mem_append.mp hc with hmem | hmem
  · exact absurd hmem (not_mem_blanks hlead hblank)
  · rcases List.mem_append.mp hmem with hmem | hmem
    · exact hmem
    · exact absurd hmem (not_mem_blanks htrail hblank)

/-- Only letters fold to letters, the Kelvin sign and the long s among them. -/
theorem alpha_of_fold {c : Char} (h : (foldLetter c).isLower = true) :
    c.isAlpha = true ∨ c = '\u212a' ∨ c = '\u017f' := by
  unfold foldLetter at h
  split at h
  · next hc => exact .inr (.inl (beq_iff_eq.mp hc))
  · split at h
    · next hc => exact .inr (.inr (beq_iff_eq.mp hc))
    · rw [Char.isLower_toLower_eq_isAlpha] at h
      exact .inl h

/-- The ranges of the Latin letters. -/
theorem alpha_range {c : Char} (h : c.isAlpha = true) :
    65 ≤ c.toNat ∧ c.toNat ≤ 90 ∨ 97 ≤ c.toNat ∧ c.toNat ≤ 122 := by
  simp only [Char.isAlpha, Char.isUpper, Char.isLower, Bool.or_eq_true, Bool.and_eq_true,
    decide_eq_true_eq, ge_iff_le, UInt32.le_iff_toNat_le] at h
  exact h

theorem upper_fold {c : Char} (hkelvin : c ≠ '\u212a') (hlong : c ≠ '\u017f') :
    (foldLetter c).toUpper = c.toUpper := by
  rw [foldLetter, if_neg (by simpa using hkelvin), if_neg (by simpa using hlong),
    Char.toUpper_toLower_eq_toUpper]

/-- What folds to no `s` and no `k` is raised like what it folds to. -/
theorem upper_of_fold {word : List Char} (h : s.map foldLetter = word) (hs : 's' ∉ word)
    (hk : 'k' ∉ word) : s.map Char.toUpper = word.map Char.toUpper ∧ '\u017f' ∉ s := by
  subst h
  have hkelvin : '\u212a' ∉ s := fun hmem => hk (List.mem_map_of_mem hmem)
  have hlong : '\u017f' ∉ s := fun hmem => hs (List.mem_map_of_mem hmem)
  refine ⟨?_, hlong⟩
  rw [List.map_map]
  exact List.map_congr_left fun c hc =>
    (upper_fold (fun heq => hkelvin (heq ▸ hc)) fun heq => hlong (heq ▸ hc)).symm

theorem unblank_of_fold {c : Char} (h : (foldLetter c).isLower = true) :
    isBlank c = false ∧ c ≠ '(' := by
  rcases alpha_of_fold h with hletter | rfl | rfl
  · have hrange := alpha_range hletter
    constructor
    · unfold isBlank
      simp only [Bool.or_eq_false_iff, Bool.and_eq_false_iff, decide_eq_false_iff_not,
        beq_eq_false_iff_ne]
      omega
    · rintro rfl
      revert hrange
      decide
  · decide
  · decide

end Text

namespace SelectItem

variable {entry : String} {s inner tail function label : List Char} {argument : Option (List Char)}

/-- The name of one of the aggregates, up to folding. -/
def IsAggregateName (function : List Char) : Prop :=
  ∃ word ∈ aggregates, function.map Text.foldLetter = word.toList

/-- What an aggregate is of: every row, or the column of this name, with blanks around it. -/
inductive IsArgument (inner : List Char) : Option (List Char) → Prop where
  | star (htrims : Text.Trims inner ['*']) : IsArgument inner none
  | name {name : List Char} (htrims : Text.Trims inner name) (hne : name ≠ [])
      (hchars : ∀ c ∈ name, isAliasChar c = true) : IsArgument inner (some name)

/-- The name that follows an aggregate: the keyword `AS` and the name, with blanks in front of
both. -/
structure IsLabel (tail label : List Char) : Prop where
  blank : ∃ c, tail.head? = some c ∧ Text.isBlank c = true
  fields : ∃ keyword, Text.HasFields tail [keyword, label] ∧
    keyword.map Text.foldLetter = "as".toList
  chars : ∀ c ∈ label, isPlainAliasChar c = true

/-- The entry is an aggregate with a name. -/
inductive IsAggregate :
    List Char → List Char → Option (List Char) → List Char → Prop where
  | intro {lead function inner tail label : List Char} {argument : Option (List Char)}
      (hlead : ∀ c ∈ lead, Text.isBlank c = true) (hfunction : IsAggregateName function)
      (hargument : IsArgument inner argument) (hlabel : IsLabel tail label) :
      IsAggregate (lead ++ (function ++ '(' :: (inner ++ ')' :: tail))) function argument label

/-- The letters of an aggregate's name fold to lower-case letters. -/
theorem IsAggregateName.lower (h : IsAggregateName function) :
    ∀ c ∈ function, (Text.foldLetter c).isLower = true := by
  obtain ⟨word, hword, hfold⟩ := h
  have hwords : aggregates.all (fun word => word.toList.all Char.isLower) = true := by decide
  intro c hc
  have hletters := List.all_eq_true.mp (List.all_eq_true.mp hwords word hword)
  exact hletters _ (hfold ▸ List.mem_map_of_mem hc)

/-- The names of the aggregates as they are written. -/
def writtenNames : List String := ["SUM", "COUNT", "MAX", "MIN"]

/-- The name of an aggregate is written in capitals, but a long s stays as it is. -/
theorem IsAggregateName.written (h : IsAggregateName function) :
    '\u017f' ∉ function ∧ Text.asciiUpper (String.ofList function) ∈ writtenNames ∨
      '\u017f' ∈ function ∧ Text.asciiUpper (String.ofList function) = "\u017fUM" := by
  have hupper : Text.asciiUpper (String.ofList function) =
      String.ofList (function.map Char.toUpper) := by
    rw [Text.asciiUpper, String.toList_ofList]
  obtain ⟨word, hword, hfold⟩ := h
  rw [hupper]
  simp only [aggregates, List.mem_cons, List.not_mem_nil, or_false] at hword
  rcases hword with rfl | rfl | rfl | rfl
  · cases function with
    | nil => cases hfold
    | cons c rest =>
        obtain ⟨hc, hrest⟩ := List.cons_eq_cons.mp hfold
        obtain ⟨hraised, hplain⟩ := Text.upper_of_fold hrest (by decide) (by decide)
        rw [List.map_cons, hraised]
        by_cases hlong : c = '\u017f'
        · subst hlong
          exact .inr ⟨List.mem_cons_self, rfl⟩
        · have hkelvin : c ≠ '\u212a' := by
            rintro rfl
            exact absurd hc (by decide)
          rw [← Text.upper_fold hkelvin hlong, hc]
          refine .inl ⟨?_, List.mem_cons_self⟩
          rw [List.mem_cons, not_or]
          exact ⟨Ne.symm hlong, hplain⟩
  all_goals
    obtain ⟨hraised, hplain⟩ := Text.upper_of_fold hfold (by decide) (by decide)
    rw [hraised]
    exact .inl ⟨hplain, by decide⟩

theorem IsAggregateName.mem_written (h : IsAggregateName function) :
    Text.asciiUpper (String.ofList function) ∈ "\u017fUM" :: writtenNames := by
  rcases h.written with ⟨-, hword⟩ | ⟨-, hword⟩
  · exact List.mem_cons_of_mem _ hword
  · exact hword ▸ List.mem_cons_self

theorem any_is_word_iff :
    aggregates.any (isWord · function) = true ↔ IsAggregateName function := by
  rw [List.any_eq_true]
  exact exists_congr fun word => and_congr_right fun _ => beq_iff_eq

theorem argument_iff : argument? inner = some argument ↔ IsArgument inner argument := by
  have hcore := Text.Trims.of_trim_chars inner
  constructor
  · intro h
    unfold argument? at h
    dsimp only at h
    split at h
    · next hstar =>
      cases h
      rw [hstar] at hcore
      exact .star hcore
    · split at h
      · next hname =>
        cases h
        rw [Bool.and_eq_true, Bool.not_eq_true', List.isEmpty_eq_false_iff, List.all_eq_true]
          at hname
        exact .name hcore hname.1 hname.2
      · cases h
  · intro h
    unfold argument?
    dsimp only
    cases h with
    | star htrims =>
        rw [htrims.trim_chars]
        rfl
    | @name name htrims hne hchars =>
        have hstar : name ≠ ['*'] := by
          rintro rfl
          exact absurd (hchars '*' List.mem_cons_self) (by decide)
        have hname : (!name.isEmpty && name.all isAliasChar) = true := by
          rw [Bool.and_eq_true, Bool.not_eq_true', List.isEmpty_eq_false_iff, List.all_eq_true]
          exact ⟨hne, hchars⟩
        rw [htrims.trim_chars, if_neg hstar, if_pos hname]

theorem aggregate_alias_iff : aggregateAlias? tail = some label ↔ IsLabel tail label := by
  constructor
  · intro h
    unfold aggregateAlias? at h
    split at h
    · next c keyword name hhead hfields =>
      split at h
      · next hall =>
        cases h
        rw [Bool.and_eq_true, Bool.and_eq_true, List.all_eq_true] at hall
        obtain ⟨⟨hblank, hkeyword⟩, hchars⟩ := hall
        exact ⟨⟨c, hhead, hblank⟩, ⟨keyword, Text.fields_iff.mpr hfields, beq_iff_eq.mp hkeyword⟩,
          hchars⟩
      · cases h
    · cases h
  · rintro ⟨⟨c, hhead, hblank⟩, ⟨keyword, hfields, hkeyword⟩, hchars⟩
    have hword : isWord "as" keyword = true := beq_iff_eq.mpr hkeyword
    unfold aggregateAlias?
    rw [hhead, Text.fields_iff.mp hfields]
    dsimp only
    rw [hblank, hword, List.all_eq_true.mpr hchars]
    rfl

/-- A text is cut at the first of the characters. -/
theorem cut_at_iff {c : Char} {front back : List Char} :
    cutAt? c s = some (front, back) ↔ s = front ++ c :: back ∧ c ∉ front := by
  constructor
  · intro h
    unfold cutAt? at h
    split at h
    · cases h
    · next d rest hdrop =>
      cases h
      have hd : d = c := by
        have hstop := Text.head_drop_while (congrArg List.head? hdrop)
        exact Decidable.not_not.mp (of_decide_eq_false hstop)
      subst hd
      refine ⟨?_, fun hmem => ?_⟩
      · rw [← hdrop, List.takeWhile_append_dropWhile]
      · have hne := List.mem_takeWhile_imp hmem
        simp at hne
  · rintro ⟨rfl, hfront⟩
    unfold cutAt?
    rw [Text.drop_until hfront, Text.take_until hfront]

/-- Blanks in front of an aggregate's name are cut off. -/
theorem trim_start_function {lead : List Char} (hlead : ∀ c ∈ lead, Text.isBlank c = true)
    (hfunction : IsAggregateName function) : Text.trimStart (lead ++ function) = function :=
  Text.drop_while_append hlead fun c hc =>
    (Text.unblank_of_fold (hfunction.lower c (List.mem_of_head? hc))).1

/-- No parenthesis opens in front of the argument. -/
theorem no_parenthesis {lead : List Char} (hlead : ∀ c ∈ lead, Text.isBlank c = true)
    (hfunction : IsAggregateName function) : '(' ∉ lead ++ function := by
  intro hmem
  rcases List.mem_append.mp hmem with hmem | hmem
  · exact Text.not_mem_blanks hlead (by decide) hmem
  · exact (Text.unblank_of_fold (hfunction.lower _ hmem)).2 rfl

/-- Nor does one close within it. -/
theorem IsArgument.not_closed (h : IsArgument inner argument) : ')' ∉ inner := by
  intro hmem
  cases h with
  | star htrims => exact absurd (htrims.mem hmem (by decide)) (by decide)
  | name htrims _ hchars => exact absurd (hchars _ (htrims.mem hmem (by decide))) (by decide)

/-- Just the aggregates with a name are read as ones. -/
theorem aggregate_iff :
    aggregate? s = some (.aggregate function argument label) ↔
      IsAggregate s function argument label := by
  unfold aggregate?
  simp only [Option.bind_eq_bind, Option.bind_eq_some_iff]
  constructor
  · rintro ⟨⟨head, rest⟩, hopen, ⟨inner, tail⟩, hclose, h⟩
    obtain ⟨rfl, -⟩ := cut_at_iff.mp hopen
    obtain ⟨rfl, -⟩ := cut_at_iff.mp hclose
    split at h
    · cases h
    · next hany =>
      rw [Bool.not_eq_true', Bool.not_eq_false] at hany
      obtain ⟨argument, hargument, label, hlabel, hitem⟩ := by
        simpa only [Option.bind_eq_some_iff] using h
      cases hitem
      have hhead : head = head.takeWhile Text.isBlank ++ Text.trimStart head :=
        List.takeWhile_append_dropWhile.symm
      have hblanks : ∀ c ∈ head.takeWhile Text.isBlank, Text.isBlank c = true :=
        fun _ => List.mem_takeWhile_imp
      have hform := IsAggregate.intro hblanks (any_is_word_iff.mp hany)
        (argument_iff.mp hargument) (aggregate_alias_iff.mp hlabel)
      rwa [← List.append_assoc, ← hhead] at hform
  · intro h
    cases h with
    | @intro lead function inner tail label argument hlead hfunction hargument hlabel =>
        refine ⟨(lead ++ function, inner ++ ')' :: tail), ?_, (inner, tail), ?_, ?_⟩
        · exact cut_at_iff.mpr ⟨(List.append_assoc _ _ _).symm, no_parenthesis hlead hfunction⟩
        · exact cut_at_iff.mpr ⟨rfl, hargument.not_closed⟩
        · rw [trim_start_function hlead hfunction, any_is_word_iff.mpr hfunction,
            argument_iff.mpr hargument, aggregate_alias_iff.mpr hlabel]
          rfl

theorem IsAggregate.name (h : IsAggregate s function argument label) :
    IsAggregateName function := by
  cases h
  assumption

theorem IsAggregate.opened (h : IsAggregate s function argument label) : '(' ∈ s := by
  cases h
  simp

/-- No column with a name is read as an aggregate. -/
theorem aliased_ne : aliased? s ≠ some (.aggregate function argument label) := by
  unfold aliased?
  split
  · split
    · nofun
    · nofun
  · nofun

theorem of_entry_aggregate_iff : ofEntry entry = .aggregate function argument label ↔
    IsAggregate entry.toList function argument label := by
  rw [← aggregate_iff]
  unfold ofEntry
  constructor
  · intro h
    split at h
    · cases h
    · cases hform : aggregate? entry.toList with
      | some item =>
          rw [hform] at h
          exact congrArg some h
      | none =>
          rw [hform] at h
          cases hplain : aliased? entry.toList with
          | some item =>
              rw [hplain] at h
              exact absurd (hplain.trans (congrArg some h)) aliased_ne
          | none =>
              rw [hplain] at h
              cases h
  · intro h
    have hstar : Text.trim entry ≠ "*" := by
      intro hstar
      have htrims := Text.Trims.of_trim_chars entry.toList
      have hcore := htrims.mem (aggregate_iff.mp h).opened (by decide)
      have hchars : Text.trimChars entry.toList = "*".toList := by
        rw [← hstar, Text.trim, String.toList_ofList]
      rw [hchars] at hcore
      exact absurd hcore (by decide)
    rw [if_neg hstar, h]
    rfl

end SelectItem

end SchemaKeeper

import SchemaKeeper.Proofs.Schema.Grammar

/-!
# Display widths in the comparison of types

Types are compared in lower case and without the blanks around them, and the display width of
integers is ignored. A width is found by its place, between the first parenthesis that opens and the
first that closes in a type that mentions `int` anywhere, so that other groups are ignored as well.
`Column.ignored_type_differences` says which types are taken to be the same, and that widths are all
that this ignores where the groups in these places are widths.
-/

namespace SchemaKeeper

namespace Text

/-- A word is found just if it stands somewhere in the text. -/
theorem contains_iff {word s : List Char} : contains word s = true ↔ word <:+: s := by
  induction s with
  | nil => rw [contains, List.isEmpty_iff, List.infix_nil]
  | cons c rest ih =>
      rw [contains, Bool.or_eq_true, List.isPrefixOf_iff_prefix, ih, List.infix_cons_iff]

end Text

namespace Column

variable {type before group after core : List Char}

/-- A type as it is compared: in lower case, without the blanks around it. -/
def lowered (engineType : String) : List Char :=
  (Text.trimChars engineType.toList).map Char.toLower

theorem lower_eq (engineType : String) :
    Text.asciiLower (Text.trim engineType) = String.ofList (lowered engineType) := by
  rw [Text.asciiLower, Text.trim, String.toList_ofList, lowered]

theorem lower_to_list (engineType : String) :
    (Text.asciiLower (Text.trim engineType)).toList = lowered engineType := by
  rw [lower_eq, String.toList_ofList]

/-- The group is ignored: the type mentions `int`, and the first parenthesis that opens in it and
the first that closes are those around the group. -/
structure Ignored (type before group after : List Char) : Prop where
  mentions : "int".toList <:+: type
  text : type = before ++ '(' :: (group ++ ')' :: after)
  opened : '(' ∉ before
  closed : ')' ∉ before ++ '(' :: group

/-- What is left of a type after a group is ignored, if one is. -/
inductive ComparedAs (type : List Char) : List Char → Prop where
  | whole (hwhole : ∀ before group after, ¬ Ignored type before group after) : ComparedAs type type
  | without {before group after : List Char} (hgroup : Ignored type before group after) :
      ComparedAs type (Text.trimChars (before ++ after))

/-- The two parentheses of an ignored group are found. -/
theorem Ignored.found (h : Ignored type before group after) :
    type.takeWhile (· ≠ '(') = before ∧
      type.takeWhile (· ≠ ')') = before ++ '(' :: group ∧
      type.dropWhile (· ≠ ')') = ')' :: after := by
  have htext : type = (before ++ '(' :: group) ++ ')' :: after := by
    rw [h.text, List.append_assoc, List.cons_append]
  refine ⟨?_, ?_, ?_⟩
  · rw [h.text, Text.take_until h.opened]
  · rw [htext, Text.take_until h.closed]
  · rw [htext, Text.drop_until h.closed]

/-- A type that mentions `int` has a group to ignore if one of its parentheses closes, and one opens
in front of the first that does. -/
theorem exists_ignored (hmentions : "int".toList <:+: type) (hclosed : ')' ∈ type)
    (horder : (type.takeWhile (· ≠ '(')).length < (type.takeWhile (· ≠ ')')).length) :
    ∃ before group after, Ignored type before group after := by
  obtain ⟨front, after, htype, hfront⟩ := List.eq_append_cons_of_mem hclosed
  have hopened : '(' ∈ front := by
    by_contra hnone
    have hne : ∀ c ∈ front, decide (c ≠ '(') = true :=
      fun c hc => decide_eq_true fun heq => hnone (heq ▸ hc)
    rw [htype, Text.take_until hfront, List.takeWhile_append_of_pos hne, List.length_append]
      at horder
    omega
  obtain ⟨before, group, rfl, hbefore⟩ := List.eq_append_cons_of_mem hopened
  refine ⟨before, group, after, hmentions, ?_, hbefore, hfront⟩
  rw [htype, List.append_assoc, List.cons_append]

/-- The group that is ignored is left out of the type. -/
theorem normalized_of_ignored {engineType : String}
    (h : Ignored (lowered engineType) before group after) :
    normalizedType engineType = String.ofList (Text.trimChars (before ++ after)) := by
  obtain ⟨htake, hfront, hdrop⟩ := h.found
  unfold normalizedType
  dsimp only
  rw [lower_to_list, if_pos (Text.contains_iff.mpr h.mentions), htake, hfront, hdrop,
    if_pos ⟨by simp, rfl⟩]
  rfl

/-- A type without a group to ignore is compared as it is. -/
theorem normalized_of_whole {engineType : String}
    (h : ∀ before group after, ¬ Ignored (lowered engineType) before group after) :
    normalizedType engineType = String.ofList (lowered engineType) := by
  unfold normalizedType
  dsimp only
  rw [lower_to_list, lower_eq]
  split
  · next hint =>
    split
    · next hgroup =>
      obtain ⟨horder, hclosed⟩ := hgroup
      have hmem : ')' ∈ lowered engineType := by
        by_contra hnone
        have hempty : (lowered engineType).dropWhile (· ≠ ')') = [] :=
          List.dropWhile_eq_nil_iff.mpr fun c hc => decide_eq_true fun heq => hnone (heq ▸ hc)
        rw [hempty] at hclosed
        exact absurd hclosed Bool.false_ne_true
      obtain ⟨before, group, after, hignored⟩ :=
        exists_ignored (Text.contains_iff.mp hint) hmem horder
      exact absurd hignored (h before group after)
    · rfl
  · rfl

/-- What is compared of a type. -/
theorem compared_iff {engineType : String} :
    ComparedAs (lowered engineType) core ↔ normalizedType engineType = String.ofList core := by
  constructor
  · intro h
    cases h with
    | whole hwhole => exact normalized_of_whole hwhole
    | without hgroup => exact normalized_of_ignored hgroup
  · intro h
    by_cases hgroup : ∃ before group after, Ignored (lowered engineType) before group after
    · obtain ⟨before, group, after, hgroup⟩ := hgroup
      rw [normalized_of_ignored hgroup, String.ofList_inj] at h
      exact h ▸ .without hgroup
    · have hwhole : ∀ before group after, ¬ Ignored (lowered engineType) before group after :=
        fun before group after hignored => hgroup ⟨before, group, after, hignored⟩
      rw [normalized_of_whole hwhole, String.ofList_inj] at h
      exact h ▸ .whole hwhole

/-- A display width: some digits. -/
def IsWidth (group : List Char) : Prop := group ≠ [] ∧ ∀ c ∈ group, c.isDigit = true

-- Spelled out, as for clean names.
instance (group : List Char) : Decidable (IsWidth group) :=
  @instDecidableAnd _ _ _ (List.decidableBAll (fun c => c.isDigit = true) group)

/-- The second text is the first one, or the first one without one display width in parentheses. -/
inductive DropsWidth : List Char → List Char → Prop where
  | none (text : List Char) : DropsWidth text text
  | one {before width after : List Char} (hwidth : IsWidth width) :
      DropsWidth (before ++ '(' :: (width ++ ')' :: after)) (before ++ after)

/-- The types are equal, up to blanks around them, when at most one display width of each is
dropped. -/
def SameButWidths (engineType other : String) : Prop :=
  ∃ kept kept', DropsWidth (lowered engineType) kept ∧ DropsWidth (lowered other) kept' ∧
    Text.trimChars kept = Text.trimChars kept'

/-- The group that is ignored in the type, if one is, is a display width. -/
def IgnoresWidthsOnly (engineType : String) : Prop :=
  ∀ before group after, Ignored (lowered engineType) before group after → IsWidth group

/-- If the group that is ignored is a width, a width is dropped. -/
theorem ComparedAs.drops_width {engineType : String} (h : ComparedAs (lowered engineType) core)
    (hwidths : IgnoresWidthsOnly engineType) :
    ∃ kept, DropsWidth (lowered engineType) kept ∧ Text.trimChars kept = Text.trimChars core := by
  cases h with
  | whole hwhole => exact ⟨_, .none _, rfl⟩
  | @without before group after hgroup =>
      refine ⟨before ++ after, ?_, ?_⟩
      · rw [hgroup.text]
        exact .one (hwidths before group after hgroup)
      · exact (Text.Trims.of_trim_chars (before ++ after)).self.trim_chars.symm

/-- The group that is ignored stands between the first parentheses. -/
theorem ignores_widths_only_of {engineType : String}
    (h : ')' ∈ lowered engineType → IsWidth (((lowered engineType).takeWhile (· ≠ ')')).drop
      (((lowered engineType).takeWhile (· ≠ '(')).length + 1))) : IgnoresWidthsOnly engineType := by
  intro before group after hgroup
  obtain ⟨htake, hfront, -⟩ := hgroup.found
  have hclosed : ')' ∈ lowered engineType := by
    rw [hgroup.text]
    simp
  have hwidth := h hclosed
  rw [htake, hfront, ← List.drop_drop, List.drop_left] at hwidth
  exact hwidth

/-- Dropping a width leaves the letters. -/
theorem DropsWidth.count_eq {text kept : List Char} (h : DropsWidth text kept) {c : Char}
    (hdigit : c.isDigit = false) (hopen : c ≠ '(') (hclose : c ≠ ')') :
    kept.count c = text.count c := by
  cases h with
  | none => rfl
  | @one before width after hwidth =>
      have hnone : width.count c = 0 := List.count_eq_zero.mpr fun hc => by
        rw [hwidth.2 c hc] at hdigit
        cases hdigit
      rw [List.count_append, List.count_append, List.count_cons_of_ne hopen.symm, List.count_append,
        List.count_cons_of_ne hclose.symm, hnone, Nat.zero_add]

/-- So does trimming. -/
theorem count_trim (text : List Char) {c : Char} (h : Text.isBlank c = false) :
    (Text.trimChars text).count c = text.count c := by
  obtain ⟨⟨lead, trail, htext, hlead, htrail⟩, -, -⟩ := Text.Trims.of_trim_chars text
  have hfront : lead.count c = 0 := List.count_eq_zero.mpr (Text.not_mem_blanks hlead h)
  have hend : trail.count c = 0 := List.count_eq_zero.mpr (Text.not_mem_blanks htrail h)
  conv => rhs; rw [htext]
  rw [List.count_append, List.count_append, hfront, hend, Nat.zero_add, Nat.add_zero]

/-- Types that are the same but for widths have the same letters. -/
theorem SameButWidths.count_eq {engineType other : String} (h : SameButWidths engineType other)
    {c : Char} (hblank : Text.isBlank c = false) (hdigit : c.isDigit = false) (hopen : c ≠ '(')
    (hclose : c ≠ ')') : (lowered engineType).count c = (lowered other).count c := by
  obtain ⟨kept, kept', hkept, hkept', hsame⟩ := h
  calc (lowered engineType).count c = kept.count c := (hkept.count_eq hdigit hopen hclose).symm
    _ = kept'.count c := by rw [← count_trim kept hblank, hsame, count_trim kept' hblank]
    _ = (lowered other).count c := hkept'.count_eq hdigit hopen hclose

/-- The definitions of two columns do not differ just if nullability and default are the same and
what is left of the types after a group is ignored in each is the same, too. If the ignored groups
are display widths, the types are equal up to one width of each. -/
theorem ignored_type_differences (a b : Column) :
    (a.definitionDiffers b = false ↔ a.nullable = b.nullable ∧
      normalizedDefault a.default = normalizedDefault b.default ∧
      ∃ core, ComparedAs (lowered a.engineType) core ∧ ComparedAs (lowered b.engineType) core) ∧
    (IgnoresWidthsOnly a.engineType → IgnoresWidthsOnly b.engineType →
      a.definitionDiffers b = false → SameButWidths a.engineType b.engineType) := by
  have htypes : (∃ core, ComparedAs (lowered a.engineType) core ∧
      ComparedAs (lowered b.engineType) core) ↔
        normalizedType a.engineType = normalizedType b.engineType := by
    simp only [compared_iff]
    refine ⟨fun ⟨core, ha, hb⟩ => ha.trans hb.symm, fun h => ?_⟩
    exact ⟨_, by rw [String.ofList_toList], by rw [← h, String.ofList_toList]⟩
  have hdiffers : a.definitionDiffers b = false ↔ a.nullable = b.nullable ∧
      normalizedDefault a.default = normalizedDefault b.default ∧
      ∃ core, ComparedAs (lowered a.engineType) core ∧
        ComparedAs (lowered b.engineType) core := by
    rw [htypes, definitionDiffers, Bool.or_eq_false_iff, Bool.or_eq_false_iff, bne_eq_false_iff_eq,
      bne_eq_false_iff_eq, bne_eq_false_iff_eq]
    exact ⟨fun ⟨⟨ht, hn⟩, hd⟩ => ⟨hn, hd, ht⟩, fun ⟨hn, hd, ht⟩ => ⟨⟨ht, hn⟩, hd⟩⟩
  refine ⟨hdiffers, fun hwidths hwidths' h => ?_⟩
  obtain ⟨-, -, core, hcore, hcore'⟩ := hdiffers.mp h
  obtain ⟨kept, hkept, htrim⟩ := hcore.drops_width hwidths
  obtain ⟨kept', hkept', htrim'⟩ := hcore'.drops_width hwidths'
  exact ⟨kept, kept', hkept, hkept', htrim.trans htrim'.symm⟩

/-- A nullable column of this type. -/
def typed (engineType : String) : Column := .ofType "c" engineType true none .none

theorem typed_type (engineType : String) : (typed engineType).engineType = engineType := by
  rw [typed, of_type_eq]

/-- The width of an unsigned integer is ignored. -/
theorem unsigned_width_ignored :
    IgnoresWidthsOnly "INT(11) unsigned" ∧ IgnoresWidthsOnly "int unsigned" ∧
      (typed "INT(11) unsigned").definitionDiffers (typed "int unsigned") = false ∧
      SameButWidths "INT(11) unsigned" "int unsigned" := by
  have hwide : IgnoresWidthsOnly "INT(11) unsigned" := ignores_widths_only_of (by decide +kernel)
  have hplain : IgnoresWidthsOnly "int unsigned" := ignores_widths_only_of (by decide +kernel)
  have hsame : (typed "INT(11) unsigned").definitionDiffers (typed "int unsigned") = false := by
    decide +kernel
  obtain ⟨-, hwidths⟩ := ignored_type_differences (typed "INT(11) unsigned") (typed "int unsigned")
  rw [typed_type, typed_type] at hwidths
  exact ⟨hwide, hplain, hsame, hwidths hwide hplain hsame⟩

/-- Enumerations with `int` inside a value are taken to be the same whatever their values are, and
so are integers with any other group in the place of a width. -/
theorem listed_values_ignored :
    (typed "enum('point','line')").definitionDiffers (typed "enum('point','circle')") = false ∧
      ¬ SameButWidths "enum('point','line')" "enum('point','circle')" ∧
      (typed "int(a)").definitionDiffers (typed "int") = false ∧
      ¬ SameButWidths "int(a)" "int" := by
  refine ⟨by decide +kernel, fun h => ?_, by decide +kernel, fun h => ?_⟩
  · have hcount := h.count_eq (c := 'c') rfl rfl (by decide) (by decide)
    exact absurd hcount (by decide +kernel)
  · have hcount := h.count_eq (c := 'a') rfl rfl (by decide) (by decide)
    exact absurd hcount (by decide +kernel)

end Column

end SchemaKeeper

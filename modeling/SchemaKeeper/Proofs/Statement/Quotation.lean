import SchemaKeeper.Proofs.Statement.Value

/-!
# Text literals

A text literal stands between single quotes, and what is between them spells its contents. The
grammar here says what a spelling is without saying how it is read: `Dialect.Spells` goes through
the characters of the spelling, and `Dialect.IsLiteral` finds the end of a literal by what may not
follow it. `Dialect.read_literal_iff` shows that the reader of literals follows this grammar, so
that a text begins with one literal at most. `Dialect.escaped_text_read_back` says that an escaped
text between quotes is read as the text, and no further than to its closing quote.
-/

namespace SchemaKeeper.Dialect

variable {d : Dialect} {body contents text rest : List Char}

/-- What stands between the quotes of a literal, and the contents that it spells. A quote is doubled
in both dialects. A backslash means something in MySQL only, together with the character behind
it. -/
inductive Spells (d : Dialect) : List Char → List Char → Prop where
  | nil : Spells d [] []
  | plain {c : Char} {body contents : List Char} (hquote : c ≠ '\'')
      (hbackslash : d = .mysql → c ≠ '\\') (h : Spells d body contents) :
      Spells d (c :: body) (c :: contents)
  | doubled {body contents : List Char} (h : Spells d body contents) :
      Spells d ('\'' :: '\'' :: body) ('\'' :: contents)
  | escaped {c : Char} {body contents : List Char} (hd : d = .mysql) (h : Spells d body contents) :
      Spells d ('\\' :: c :: body) (unescaped c ++ contents)

/-- The text begins with a literal of these contents, and the rest follows it. A quote cannot, as it
would double the closing one. -/
def IsLiteral (d : Dialect) (text contents rest : List Char) : Prop :=
  ∃ body, text = '\'' :: (body ++ '\'' :: rest) ∧ d.Spells body contents ∧ rest.head? ≠ some '\''

/-- A character that means something special in the literals of the dialect. -/
theorem escapes_and_iff {c : Char} : (d.escapes && c == '\\') = false ↔ d = .mysql → c ≠ '\\' := by
  cases d <;> simp [escapes]

theorem escapes_iff : d.escapes = true ↔ d = .mysql := by
  cases d <;> simp [escapes]

/-- A spelling in front of a closing quote is read as what it spells. -/
theorem Spells.read (h : d.Spells body contents) (hrest : rest.head? ≠ some '\'') :
    d.readLiteral? (body ++ '\'' :: rest) = some (contents, rest) := by
  unfold readLiteral?
  induction h with
  | nil => exact read_quoted_close hrest
  | plain hquote hbackslash _ ih =>
      rw [List.cons_append, read_quoted_plain hquote (escapes_and_iff.mpr hbackslash) (by simp), ih]
      rfl
  | doubled _ ih =>
      rw [List.cons_append, List.cons_append, read_quoted_doubled, ih]
      rfl
  | escaped hd _ ih =>
      rw [escapes_iff.mpr hd] at ih ⊢
      rw [List.cons_append, List.cons_append, read_quoted_escape (by decide), ih]
      rfl

/-- What is read as some contents is a spelling of these in front of a closing quote. -/
theorem spells_of_read (h : readQuoted? d.escapes '\'' text = some (contents, rest)) :
    ∃ body, text = body ++ '\'' :: rest ∧ d.Spells body contents ∧ rest.head? ≠ some '\'' := by
  -- The reader looks one character ahead, which tells a closing quote from a doubled one.
  fun_induction readQuoted? d.escapes '\'' text generalizing contents rest with
  | case1 => cases h
  | case2 =>
      cases h
      exact ⟨[], rfl, .nil, by decide⟩
  | case3 => cases h
  | case4 after ih =>
      obtain ⟨⟨s, r⟩, hread, heq⟩ := Option.map_eq_some_iff.mp h
      cases heq
      obtain ⟨body, rfl, hspells, hrest⟩ := ih hread
      exact ⟨'\'' :: '\'' :: body, rfl, .doubled hspells, hrest⟩
  | case5 next after hne =>
      cases h
      exact ⟨[], rfl, .nil, fun hhead => hne (Option.some.inj hhead)⟩
  | case6 c next after hquote hescapes ih =>
      obtain ⟨⟨s, r⟩, hread, heq⟩ := Option.map_eq_some_iff.mp h
      cases heq
      obtain ⟨body, rfl, hspells, hrest⟩ := ih hread
      rw [Bool.and_eq_true, beq_iff_eq] at hescapes
      obtain ⟨hd, rfl⟩ := hescapes
      exact ⟨'\\' :: next :: body, rfl, .escaped (escapes_iff.mp hd) hspells, hrest⟩
  | case7 c next after hquote hescapes ih =>
      obtain ⟨⟨s, r⟩, hread, heq⟩ := Option.map_eq_some_iff.mp h
      cases heq
      obtain ⟨body, htext, hspells, hrest⟩ := ih hread
      rw [Bool.not_eq_true] at hescapes
      refine ⟨c :: body, ?_, .plain hquote (escapes_and_iff.mp hescapes) hspells, hrest⟩
      rw [htext, List.cons_append]

/-- The reader of literals follows the grammar. -/
theorem read_literal_iff :
    d.readLiteral? text = some (contents, rest) ↔ d.IsLiteral ('\'' :: text) contents rest := by
  constructor
  · intro h
    obtain ⟨body, rfl, hspells, hrest⟩ := spells_of_read h
    exact ⟨body, rfl, hspells, hrest⟩
  · rintro ⟨body, htext, hspells, hrest⟩
    rw [(List.cons.inj htext).2]
    exact hspells.read hrest

/-- An escaped text between quotes is one literal with the text in it, whatever text that does not
begin with a quote follows: the reader stops in front of what follows, and there is no other way to
read a literal there. -/
theorem escaped_text_read_back (d : Dialect) (s : String) (following : List Char)
    (hfollowing : following.head? ≠ some '\'') :
    d.readLiteral? ((d.escape s).toList ++ '\'' :: following) = some (s.toList, following) ∧
      ∀ contents rest,
        d.IsLiteral ('\'' :: ((d.escape s).toList ++ '\'' :: following)) contents rest ↔
          contents = s.toList ∧ rest = following := by
  have hread : d.readLiteral? ((d.escape s).toList ++ '\'' :: following) =
      some (s.toList, following) := by
    rw [escape, String.toList_ofList]
    exact read_literal_escape s.toList hfollowing
  refine ⟨hread, fun contents rest => ?_⟩
  rw [← read_literal_iff, hread, Option.some.injEq, Prod.mk.injEq]
  exact ⟨fun h => ⟨h.1.symm, h.2.symm⟩, fun h => ⟨h.1.symm, h.2.symm⟩⟩

/-- The statement above has instances in which a backslash and a quote stand in front of the closing
quote. -/
theorem quote_and_backslash_read_back :
    [')'].head? ≠ some '\'' ∧
    Dialect.mysql.escape "it's\n\\'" = "it\\'s\\n\\\\\\'" ∧
    Dialect.sqlite.escape "it's\n\\'" = "it''s\n\\''" ∧
    ∀ d : Dialect, ∀ contents rest,
      d.IsLiteral ('\'' :: ((d.escape "it's\n\\'").toList ++ ['\'', ')'])) contents rest ↔
        contents = "it's\n\\'".toList ∧ rest = [')'] :=
  ⟨by decide, by decide, by decide, fun d => (escaped_text_read_back d _ [')'] (by decide)).2⟩

end SchemaKeeper.Dialect

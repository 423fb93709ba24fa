import SchemaKeeper.Proofs.Synchronization.Statements

/-!
# The gate on destructive changes

Without force a synchronization sends nothing that could lose data or structure, whatever the engine
answers: such changes are recorded as skipped, and so is the index that would replace one that
stays. `Guards` follows the columns whose index stays through the parts of a run, and
`Session.update_schema_gate` is the whole of it.
-/

namespace SchemaKeeper

/-- A change that only adds to a database. -/
def Change.isAdditive : Change → Bool
  | .createTable _ | .addColumn .. | .addIndex .. => true
  | .modifyColumn .. | .dropColumn .. | .dropIndex .. => false

theorem Change.is_destructive_eq (change : Change) :
    change.isDestructive = !change.isAdditive := by
  cases change <;> rfl

namespace Event

/-- The index of a column stays, because dropping it was skipped for want of force. -/
def KeepsIndex (table column : String) (event : Event) : Prop :=
  ∃ record name, event = .recorded record ∧ record.change = .dropIndex table column name ∧
    record.outcome = .skipped .destructive

/-- The event adds no index to a column: adding one is held back, and no statement that does so is
sent. -/
structure AddsNoIndex (d : Dialect) (table column : String) (event : Event) : Prop where
  held : ∀ record kind, event = .recorded record → record.change = .addIndex table column kind →
    record.outcome = .skipped .pendingIndexDrop
  unsent : ∀ kind, ∀ s ∈ d.statements (.addIndex table column kind), ∀ reply,
    event ≠ .called (.execute (.ddl s)) reply

/-- The event has nothing to do with the index of a column. -/
structure SparesIndex (d : Dialect) (table column : String) (event : Event) : Prop where
  adds : event.AddsNoIndex d table column
  keeps : ¬ event.KeepsIndex table column

end Event

namespace Synchronization

open Session

variable {σ : Type} {b : Backend σ} {d : Dialect} {options : SyncOptions} {table column : String}

/-- Without force only additive changes are carried out. -/
theorem additive_of_applied (hforce : options.force = false) {change : Change}
    (h : outcomeOf options change = .applied) : change.isAdditive = true := by
  unfold outcomeOf at h
  rw [hforce, change.is_destructive_eq] at h
  cases hadditive : change.isAdditive with
  | true => rfl
  | false =>
      rw [hadditive] at h
      cases h

/-- Adding an index to a column takes a statement that creates one on it. -/
theorem creates_index {s : Ddl} {kind : IndexKind}
    (h : s ∈ d.statements (.addIndex table column kind)) :
    ∃ name unique, s = .createIndex name table column unique := by
  change s ∈ (d.indexStatement? table column kind).toList at h
  unfold Dialect.indexStatement? at h
  split at h
  · exact ⟨_, _, List.mem_singleton.mp h⟩
  · cases h

/-- Of the additive changes only those to a column create an index on it. -/
theorem concerns_of_creates_index {change : Change} {name : String} {unique : Bool}
    (hadditive : change.isAdditive = true)
    (h : .createIndex name table column unique ∈ d.statements change) :
    change.Concerns table column := by
  cases change with
  | createTable t => simp [Dialect.statements] at h
  | addColumn t c after =>
      cases d with
      | mysql => simp [Dialect.statements] at h
      | sqlite =>
          have hindex : .createIndex name table column unique ∈
              Dialect.statements .sqlite (.addIndex t c.name c.index) := by
            simpa [Dialect.statements] using h
          obtain ⟨_, _, heq⟩ := creates_index hindex
          cases heq
          exact ⟨rfl, rfl⟩
  | addIndex t c kind =>
      obtain ⟨_, _, heq⟩ := creates_index h
      cases heq
      exact ⟨rfl, rfl⟩
  | modifyColumn | dropColumn | dropIndex => cases hadditive

end Synchronization

namespace Event.IsPartOf

open Synchronization

variable {d : Dialect} {options : SyncOptions} {change : Change} {outcome : Outcome}
  {table column : String} {event : Event}

/-- Without force a change that does not concern a column has nothing to do with its index. -/
theorem spares_index (hforce : options.force = false)
    (h : event.IsPartOf d change (outcomeOf options change))
    (hother : ¬ change.Concerns table column) : event.SparesIndex d table column := by
  refine ⟨⟨fun record kind hrecord hchange => ?_, fun kind s hs reply hsent => ?_⟩, ?_⟩
  · rw [h.recorded record hrecord] at hchange
    obtain rfl : change = .addIndex table column kind := hchange
    exact absurd ⟨rfl, rfl⟩ hother
  · obtain ⟨name, unique, rfl⟩ := creates_index hs
    obtain ⟨happlied, hmem⟩ := h.sent _ reply hsent
    exact hother (concerns_of_creates_index (additive_of_applied hforce happlied) hmem)
  · rintro ⟨record, name, hrecord, hchange, -⟩
    rw [h.recorded record hrecord] at hchange
    obtain rfl : change = .dropIndex table column name := hchange
    exact hother ⟨rfl, rfl⟩

/-- What is held back for an index that stays adds none. -/
theorem spares_index_of_held (h : event.IsPartOf d change (.skipped .pendingIndexDrop))
    (table column : String) : event.SparesIndex d table column := by
  refine ⟨⟨fun record kind hrecord _ => ?_, fun kind s _ reply hsent => ?_⟩, ?_⟩
  · rw [h.recorded record hrecord]
    rfl
  · cases (h.sent s reply hsent).1
  · rintro ⟨record, name, hrecord, -, houtcome⟩
    rw [h.recorded record hrecord] at houtcome
    cases houtcome

end Event.IsPartOf

namespace Synchronization

open Session

variable {σ : Type} {b : Backend σ} {d : Dialect} {options : SyncOptions} {table column : String}

/-- What has nothing to do with the index of a column is all that changes to other columns and
tables come to. -/
theorem admits_spares_index (hforce : options.force = false) {change : Change}
    (hother : ¬ change.Concerns table column) : Admits b options
      (fun _ events => ∀ event ∈ events, event.SparesIndex b.dialect table column) change := by
  refine Admits.of_part_of fun outcome event houtcome hpart => ?_
  rcases houtcome with rfl | rfl
  · exact hpart.spares_index hforce hother
  · exact hpart.spares_index_of_held table column

theorem spares_index_cumulative (d : Dialect) (table column : String) :
    Cumulative fun _ events => ∀ event ∈ events, event.SparesIndex d table column := by
  refine Cumulative.of_forall fun event h => ⟨⟨?_, ?_⟩, ?_⟩
  · exact fun record _ hrecord => absurd hrecord (h.unrecorded record)
  · exact fun _ _ _ reply hsent => absurd hsent (h.unsent _ reply)
  · rintro ⟨record, _, hrecord, -⟩
    exact h.unrecorded record hrecord

/-- The first live column of the name has an index. -/
def Indexed (live : List LiveColumn) (column : String) : Prop :=
  ∃ c, live.find? (fun c => c.name = column) = some c ∧ c.spec.index.isIndexed = true

/-- What a part of a run that brings a column about does for the columns whose index may stay: none
gets another index, only their index drops are skipped, and they stay indexed. -/
structure Guards (d : Dialect) (table : String) (live : List LiveColumn)
    (result : Except Failure Progress) (events : List Event) : Prop where
  spared : ∀ column, Indexed live column → ∀ event ∈ events, event.AddsNoIndex d table column
  kept : ∀ column, ∀ event ∈ events, event.KeepsIndex table column → Indexed live column
  still : ∀ p, result = .ok p → ∀ column, Indexed live column → Indexed p.1 column

variable {live : List LiveColumn} {declared : Column}

/-- Replacing a column by one of the same name does not matter to the others. -/
theorem find_replace_first {name column : String} {f : LiveColumn → LiveColumn}
    (hf : ∀ c, (f c).name = c.name) (hne : column ≠ name) :
    (replaceFirst name f live).find? (fun c => c.name = column) =
      live.find? fun c => c.name = column := by
  induction live with
  | nil => rfl
  | cons c rest ih =>
      unfold replaceFirst
      by_cases hname : c.name = name
      · have hc : ¬ c.name = column := fun h => hne (h.symm.trans hname)
        rw [if_pos hname, List.find?_cons_of_neg (by simpa [hf] using hc),
          List.find?_cons_of_neg (by simpa using hc)]
      · rw [if_neg hname, List.find?_cons, List.find?_cons, ih]

/-- A new column does not matter to those of other names. -/
theorem find_insert_after {after column : String} {c : LiveColumn} (hne : c.name ≠ column) :
    (insertAfter after c live).find? (fun c => c.name = column) =
      live.find? fun c => c.name = column := by
  unfold insertAfter
  split
  · next i _ =>
      rw [List.find?_append, List.find?_cons_of_neg (by simpa using hne), ← List.find?_append,
        List.take_append_drop]
  · exact List.find?_cons_of_neg (by simpa using hne)

/-- A change concerns one column only. -/
theorem concerns_unique {change : Change} {other : String} (h : change.Concerns table column)
    (h' : change.Concerns table other) : column = other := by
  cases change with
  | addColumn | modifyColumn | addIndex | dropIndex => exact h.2.symm.trans h'.2
  | createTable | dropColumn => exact h.elim

/-- An additive change to a column without an index does nothing to those that have one. -/
theorem apply_guards (hforce : options.force = false) {change : Change} {name : String}
    (hadditive : change.isAdditive = true) (hchange : change.Concerns table name)
    (hfree : ¬ Indexed live name) {live' : List LiveColumn}
    (hlive : ∀ column, column ≠ name → Indexed live column → Indexed live' column) :
    (apply b options change >>= fun record => pure (live', [record])).Shows
      (Guards b.dialect table live) := by
  have hne : ∀ column, Indexed live column → column ≠ name := by
    rintro column hindexed rfl
    exact hfree hindexed
  -- The change is no index drop, and what it adds is added to its own column.
  have hguards : ∀ result events, (∀ p, result = .ok p → p.1 = live') →
      (∀ event ∈ events, event.IsPartOf b.dialect change (outcomeOf options change)) →
      Guards b.dialect table live result events := by
    intro result events hresult hpart
    refine ⟨fun column hindexed event hevent => ?_, fun column event hevent hkeeps => ?_, ?_⟩
    · refine ((hpart event hevent).spares_index hforce fun hconcerns => ?_).adds
      exact hne column hindexed (concerns_unique hconcerns hchange)
    · obtain ⟨record, name, hrecord, hdrop, -⟩ := hkeeps
      rw [(hpart event hevent).recorded record hrecord] at hdrop
      obtain rfl : change = .dropIndex table column name := hdrop
      cases hadditive
    · intro p hp column hindexed
      rw [hresult p hp]
      exact hlive column (hne column hindexed) hindexed
  refine Shows.map (apply_part_of b options change) _ ?_ ?_
  · exact fun e events h => hguards _ _ (fun _ hp => nomatch hp) h
  · refine fun record events h => hguards _ _ (fun p hp => ?_) h
    cases hp
    rfl

/-- Adding an index to a column without one does nothing to those that have one. -/
theorem add_index_guards (hforce : options.force = false)
    (hfree : ¬ Indexed live declared.name) :
    (addIndex b options table declared false live).Shows (Guards b.dialect table live) := by
  unfold addIndex
  split
  · refine Shows.pure ⟨fun _ _ _ h => (nomatch h), fun _ _ h => (nomatch h), ?_⟩
    rintro p hp column hindexed
    cases hp
    exact hindexed
  · have hchange : (Change.addIndex table declared.name declared.index).Concerns table
        declared.name := ⟨rfl, rfl⟩
    refine apply_guards hforce rfl hchange hfree fun column hne hindexed => ?_
    unfold Indexed
    rw [find_replace_first ?_ hne]
    · exact hindexed
    · exact fun c => rfl

/-- Notices guard the columns whose index stays if each index that they would drop is there and each
index that they would add is held back. -/
theorem notes_guards {op : Session σ Progress} {records : List ChangeRecord}
    (hop : op.Notes (live, records) records)
    (hdrop : ∀ record ∈ records, ∀ column name, record.change = .dropIndex table column name →
      Indexed live column)
    (hadd : ∀ record ∈ records, ∀ column kind, record.change = .addIndex table column kind →
      record.outcome = .skipped .pendingIndexDrop) : op.Shows (Guards d table live) := by
  refine hop.shows.mono ?_
  rintro _ _ ⟨rfl, rfl⟩
  refine ⟨fun column _ event hevent => ⟨?_, ?_⟩, fun column event hevent hkeeps => ?_, ?_⟩
  · rintro record kind rfl hchange
    obtain ⟨_, hrecord, heq⟩ := List.mem_map.mp hevent
    cases heq
    exact hadd record hrecord column kind hchange
  · rintro kind s _ reply rfl
    obtain ⟨_, _, heq⟩ := List.mem_map.mp hevent
    cases heq
  · obtain ⟨record, name, rfl, hchange, -⟩ := hkeeps
    obtain ⟨_, hrecord, heq⟩ := List.mem_map.mp hevent
    cases heq
    exact hdrop record hrecord column name hchange
  · rintro p hp column hindexed
    cases hp
    exact hindexed

/-- Without force bringing the index of a column about replaces no index. -/
theorem sync_index_guards (hforce : options.force = false) (live : List LiveColumn) :
    (syncIndex b options table declared live).Shows (Guards b.dialect table live) := by
  cases hfind : live.find? fun c => c.name = declared.name with
  | none =>
      unfold syncIndex
      rw [hfind]
      refine notes_guards (Notes.pure _) ?_ ?_ <;> exact fun _ h => nomatch h
  | some current =>
      by_cases hindex : current.spec.index = declared.index ∨ current.spec.index.isIndexed = true
      · refine notes_guards (sync_index_notes hforce hfind hindex) ?_ ?_
        · intro record hrecord column name hchange
          obtain ⟨hindexed, ⟨_, rfl⟩ | rfl⟩ := mem_index_notices hrecord
          · cases hchange
            exact ⟨current, hfind, hindexed⟩
          · cases hchange
        · intro record hrecord column kind hchange
          obtain ⟨-, ⟨_, rfl⟩ | rfl⟩ := mem_index_notices hrecord
          · cases hchange
          · rfl
      · obtain ⟨hne, hfree⟩ := not_or.mp hindex
        rw [sync_index_some hfind, if_neg hne, if_neg hfree]
        refine add_index_guards hforce ?_
        rintro ⟨c, hc, hindexed⟩
        cases hfind.symm.trans hc
        exact hfree hindexed

/-- Notices on definitions in front change nothing about the columns whose index stays. -/
theorem Guards.prepend {result result' : Except Failure Progress} {events : List Event}
    (h : Guards d table live result events) {records : List ChangeRecord}
    (hrecords : ∀ record ∈ records, ∃ column columns,
      record = .of d (.modifyColumn table column columns) (.skipped .destructive))
    (hresult : ∀ p', result' = .ok p' → ∃ p, result = .ok p ∧ p.1 = p'.1) :
    Guards d table live result' (records.map .recorded ++ events) := by
  refine ⟨fun column hindexed event hevent => ?_, fun column event hevent hkeeps => ?_, ?_⟩
  · rcases List.mem_append.mp hevent with hevent | hevent
    · obtain ⟨record, hrecord, rfl⟩ := List.mem_map.mp hevent
      obtain ⟨_, _, rfl⟩ := hrecords record hrecord
      refine ⟨fun record' kind heq hadd => ?_, fun _ _ _ _ heq => nomatch heq⟩
      cases heq
      cases hadd
    · exact h.spared column hindexed event hevent
  · rcases List.mem_append.mp hevent with hevent | hevent
    · obtain ⟨record, hrecord, rfl⟩ := List.mem_map.mp hevent
      obtain ⟨_, _, rfl⟩ := hrecords record hrecord
      obtain ⟨record', name, heq, hdrop, -⟩ := hkeeps
      cases heq
      cases hdrop
    · exact h.kept column event hevent hkeeps
  · intro p' hp' column hindexed
    obtain ⟨p, hp, hlive⟩ := hresult p' hp'
    exact hlive ▸ h.still p hp column hindexed

/-- Without force bringing a column about replaces no index. -/
theorem sync_column_guards (hforce : options.force = false) (after : String)
    (live : List LiveColumn) :
    (syncColumn b options table after declared live).Shows (Guards b.dialect table live) := by
  cases hfind : live.find? fun c => c.name = declared.name with
  | none =>
      rw [sync_column_none hfind]
      have hchange : (Change.addColumn table declared after).Concerns table declared.name :=
        ⟨rfl, rfl⟩
      refine apply_guards hforce rfl hchange ?_ fun column hne hindexed => ?_
      · rintro ⟨c, hc, -⟩
        cases hfind.symm.trans hc
      · have hname : (added b.dialect table declared).name ≠ column := hne.symm
        unfold Indexed
        rwa [find_insert_after hname]
  | some current =>
      rw [sync_column_some hfind]
      refine (redefine_notes hforce table declared current live).bind_shows ?_
      refine Shows.map (sync_index_guards hforce live) _ ?_ ?_
      · exact fun e events h => h.prepend (fun _ => mem_definition_notices) fun _ hp => nomatch hp
      · refine fun p events h => h.prepend (fun _ => mem_definition_notices) fun p' hp' => ?_
        cases hp'
        exact ⟨p, rfl, rfl⟩

/-- A column whose index stays gets no other one after the notice that it stays and, under a
condition, not before it either. -/
structure Waits (d : Dialect) (table column : String) (condition : Prop) (events : List Event) :
    Prop where
  later : events.Pairwise fun e e' => e.KeepsIndex table column → e'.AddsNoIndex d table column
  throughout : condition → (∃ e ∈ events, e.KeepsIndex table column) →
    ∀ e ∈ events, e.AddsNoIndex d table column

namespace Waits

variable {condition condition' : Prop} {events before behind : List Event}

theorem mono (h : Waits d table column condition events) (hcondition : condition' → condition) :
    Waits d table column condition' events :=
  ⟨h.later, fun h' => h.throughout (hcondition h')⟩

/-- Where a notice that the index stays means that nothing adds one, all is well. -/
theorem of_forall (h : (∃ e ∈ events, e.KeepsIndex table column) →
    ∀ e ∈ events, e.AddsNoIndex d table column) : Waits d table column condition events :=
  ⟨List.pairwise_of_forall_mem_list fun e he e' he' hkeeps => h ⟨e, he, hkeeps⟩ e' he',
    fun _ => h⟩

theorem of_spares (h : ∀ e ∈ events, e.SparesIndex d table column) :
    Waits d table column condition events :=
  of_forall fun _ e he => (h e he).adds

/-- Events in front that have nothing to do with the index. -/
theorem spares_append (hbefore : ∀ e ∈ before, e.SparesIndex d table column)
    (h : Waits d table column condition behind) :
    Waits d table column condition (before ++ behind) := by
  constructor
  · have hfirst : Waits d table column condition before := of_spares hbefore
    refine List.pairwise_append.mpr ⟨hfirst.later, h.later, ?_⟩
    exact fun e he e' _ hkeeps => absurd hkeeps (hbefore e he).keeps
  · rintro hcondition ⟨e, he, hkeeps⟩ e' he'
    have hbehind : e ∈ behind :=
      (List.mem_append.mp he).resolve_left fun he => (hbefore e he).keeps hkeeps
    rcases List.mem_append.mp he' with he' | he'
    · exact (hbefore e' he').adds
    · exact h.throughout hcondition ⟨e, hbehind, hkeeps⟩ e' he'

/-- Events behind that have nothing to do with the index. -/
theorem append_spares (h : Waits d table column condition before)
    (hbehind : ∀ e ∈ behind, e.SparesIndex d table column) :
    Waits d table column condition (before ++ behind) := by
  constructor
  · have hsecond : Waits d table column condition behind := of_spares hbehind
    refine List.pairwise_append.mpr ⟨h.later, hsecond.later, ?_⟩
    exact fun _ _ e' he' _ => (hbehind e' he').adds
  · rintro hcondition ⟨e, he, hkeeps⟩ e' he'
    have hbefore : e ∈ before :=
      (List.mem_append.mp he).resolve_right fun he => (hbehind e he).keeps hkeeps
    rcases List.mem_append.mp he' with he' | he'
    · exact h.throughout hcondition ⟨e, hbefore, hkeeps⟩ e' he'
    · exact (hbehind e' he').adds

end Waits

/-- Bringing declared columns about has nothing to do with the index of another one. -/
theorem sync_columns_spares_index (hforce : options.force = false) (columns : List Column)
    (after : String) (live : List LiveColumn) (column : String) :
    (syncColumns b options table after columns live).Shows fun _ events =>
      column ∉ columns.map Column.name →
        ∀ event ∈ events, event.SparesIndex b.dialect table column := by
  intro db hcolumn
  refine sync_columns_obeys (spares_index_cumulative _ _ _) ?_ after live db
  intro declared hdeclared change hchange
  refine admits_spares_index hforce fun hconcerns => hcolumn ?_
  rw [concerns_unique hconcerns hchange]
  exact List.mem_map_of_mem hdeclared

/-- Along the declared columns of a table an index that stays is not replaced. What holds of the
columns to come depends on the tracked columns, so that the induction is over both. -/
theorem sync_columns_waits (hforce : options.force = false) (columns : List Column)
    (after : String) (live : List LiveColumn) (column : String) :
    (syncColumns b options table after columns live).Shows fun _ events =>
      (Indexed live column → ∀ event ∈ events, event.AddsNoIndex b.dialect table column) ∧
        Waits b.dialect table column (columns.map Column.name).Nodup events := by
  induction columns generalizing after live with
  | nil => exact Shows.pure ⟨fun _ _ h => (nomatch h), .of_spares fun _ h => nomatch h⟩
  | cons declared rest ih =>
      rw [sync_columns_cons, List.map_cons]
      split
      · exact (ih after live).mono fun _ _ h => ⟨h.1, h.2.mono fun hnodup => hnodup.of_cons⟩
      -- The column at hand concerns itself only, and the rest of them the others.
      have hfirst : (syncColumn b options table after declared live).Shows fun result events =>
          Guards b.dialect table live result events ∧
            (column ≠ declared.name →
              ∀ event ∈ events, event.SparesIndex b.dialect table column) := by
        refine (sync_column_guards hforce after live).and fun db hne => ?_
        refine sync_column_obeys (spares_index_cumulative _ _ _) (fun change hchange => ?_) after
          live db
        exact admits_spares_index hforce fun hconcerns => hne (concerns_unique hconcerns hchange)
      have hrest : ∀ p : Progress, (syncColumns b options table declared.name rest p.1 >>=
          fun records => pure (p.2 ++ records)).Shows fun _ events =>
            ((Indexed p.1 column → ∀ event ∈ events, event.AddsNoIndex b.dialect table column) ∧
              Waits b.dialect table column (rest.map Column.name).Nodup events) ∧
            (column ∉ rest.map Column.name →
              ∀ event ∈ events, event.SparesIndex b.dialect table column) := by
        intro p
        exact Shows.map_events ((ih declared.name p.1).and
          (sync_columns_spares_index hforce rest declared.name p.1 column)) _
      have hwaits : ∀ {result events}, Guards b.dialect table live result events → ∀ condition,
          Waits b.dialect table column condition events := by
        refine fun h condition => .of_forall fun ⟨e, he, hkeeps⟩ => ?_
        exact h.spared column (h.kept column e he hkeeps)
      refine hfirst.bind hrest ?_ ?_
      · exact fun e events h => ⟨h.1.spared column, hwaits h.1 _⟩
      · rintro p first result second ⟨hguards, hspares⟩ ⟨⟨hspared, hrest⟩, hothers⟩
        have hstill : Indexed live column → ∀ event ∈ second,
            event.AddsNoIndex b.dialect table column :=
          fun hindexed => hspared (hguards.still p rfl column hindexed)
        refine ⟨fun hindexed event hevent => ?_, ?_, fun hnodup => ?_⟩
        · exact (List.mem_append.mp hevent).elim (hguards.spared column hindexed event)
            (hstill hindexed event)
        · refine List.pairwise_append.mpr ⟨(hwaits hguards True).later, hrest.later, ?_⟩
          intro e he e' he' hkeeps
          exact hstill (hguards.kept column e he hkeeps) e' he'
        · obtain ⟨hdeclared, hnodup⟩ := List.nodup_cons.mp hnodup
          by_cases hname : column = declared.name
          · subst hname
            exact ((hwaits hguards True).append_spares (hothers hdeclared)).throughout trivial
          · exact (Waits.spares_append (hspares hname) hrest).throughout hnodup

/-- What comes first and has nothing to do with the index does not matter. -/
theorem spares_bind_waits {α β : Type} {op : Session σ α} {f : α → Session σ β} [Grows op]
    [∀ a, Grows (f a)] {condition : Prop}
    (hop : op.Shows fun _ events => ∀ event ∈ events, event.SparesIndex d table column)
    (hf : ∀ a, (f a).Shows fun _ => Waits d table column condition) :
    (op >>= f).Shows fun _ => Waits d table column condition :=
  hop.bind hf (fun _ _ h => .of_spares h) fun _ _ _ _ h h' => .spares_append h h'

/-- Within a table an index that stays is not replaced. Before the declared columns come up only
changes are made that concern no column. -/
theorem sync_table_waits (hforce : options.force = false) (table : Table) (present : Bool)
    (column : String) : (syncTable b options table present).Shows fun _ events =>
      Waits b.dialect table.name column (table.columns.map Column.name).Nodup events := by
  have hinv := spares_index_cumulative b.dialect table.name column
  have hcreate : (ensureTable b options table.name present).Obeys fun _ events =>
      ∀ event ∈ events, event.SparesIndex b.dialect table.name column := by
    refine ensure_table_obeys hinv (admits_spares_index hforce ?_) present
    exact fun hconcerns => hconcerns
  have hlive : (liveColumns b options table.name present).Obeys fun _ events =>
      ∀ event ∈ events, event.SparesIndex b.dialect table.name column :=
    .of_quiet hinv (live_columns_quiet present)
  have hdrop : ∀ live, (dropAll b options table.name (stale table live) live).Obeys fun _ events =>
      ∀ event ∈ events, event.SparesIndex b.dialect table.name column := by
    refine fun live => drop_all_obeys hinv (fun _ _ _ _ _ => admits_spares_index hforce ?_) live
    exact fun hconcerns => hconcerns
  have hcolumns : ∀ live, (syncColumns b options table.name "id" table.columns live).Shows
      fun _ events => Waits b.dialect table.name column (table.columns.map Column.name).Nodup
        events :=
    fun live => (sync_columns_waits hforce table.columns "id" live column).mono fun _ _ h => h.2
  rw [sync_table_eq]
  refine spares_bind_waits hcreate fun created => spares_bind_waits hlive fun live =>
    spares_bind_waits (hdrop live) fun p => ?_
  exact (hcolumns p.1).map_events _

/-- Bringing tables about has nothing to do with the index of a column of another one. -/
theorem sync_tables_spares_index (hforce : options.force = false) (tables : List Table)
    (existing : List String) (table column : String) :
    (syncTables b options tables existing).Shows fun _ events =>
      table ∉ tables.map Table.name →
        ∀ event ∈ events, event.SparesIndex b.dialect table column := by
  intro db htable
  refine sync_tables_obeys (spares_index_cumulative _ _ _) (fun change hchange => ?_) existing db
  refine admits_spares_index hforce fun hconcerns => htable ?_
  rwa [← hconcerns.table_eq]

/-- Along distinct tables an index that stays is not replaced: at most one of them is its own, and
the others have nothing to do with it. -/
theorem sync_tables_waits (hforce : options.force = false) {tables : List Table}
    (htables : (tables.map Table.name).Nodup) (existing : List String) (table column : String) :
    (syncTables b options tables existing).Shows fun _ events =>
      Waits b.dialect table column
        (∀ t ∈ tables, t.name = table → (t.columns.map Column.name).Nodup) events := by
  induction tables generalizing existing with
  | nil => exact Shows.pure (.of_spares fun _ h => nomatch h)
  | cons t rest ih =>
      rw [List.map_cons, List.nodup_cons] at htables
      rw [sync_tables_cons]
      by_cases hname : t.name = table
      · subst hname
        refine Shows.bind (sync_table_waits hforce t _ column) (fun _ =>
          (sync_tables_spares_index hforce rest _ t.name column).map_events _) ?_ ?_
        · exact fun _ _ h => h.mono fun hcolumns => hcolumns t List.mem_cons_self rfl
        · intro _ _ _ _ h hspares
          refine (h.append_spares (hspares htables.1)).mono fun hcolumns => ?_
          exact hcolumns t List.mem_cons_self rfl
      · have hspares : (syncTable b options t (existing.contains t.name)).Obeys fun _ events =>
            ∀ event ∈ events, event.SparesIndex b.dialect table column := by
          refine sync_table_obeys (spares_index_cumulative _ _ _) (fun change hchange => ?_) _
          refine admits_spares_index hforce fun hconcerns => hname ?_
          rw [← hchange, hconcerns.table_eq]
        refine Shows.mono (spares_bind_waits hspares fun _ => (ih htables.2 _).map_events _) ?_
        exact fun _ _ h => h.mono fun hcolumns t' ht' => hcolumns t' (List.mem_cons_of_mem _ ht')

namespace Carried

variable {failure : Option Failure} {events : List Event}

/-- Without force each statement that was sent belongs to an additive change: to one that was
applied or, in a run that failed, to the one that it failed at. -/
theorem additive (h : Carried d options failure events) (hforce : options.force = false)
    {command : Command} (hcommand : command ∈ Event.commands events) :
    ∃ change, ∃ s ∈ d.statements change, command = .ddl s ∧ change.isAdditive = true ∧
      (.of d change .applied ∈ Event.records events ∨ failure ≠ none) := by
  obtain ⟨sent, hcommands, hnone, -, hsent⟩ := h.sent
  rw [hcommands] at hcommand
  rcases List.mem_append.mp hcommand with hcommand | hcommand
  · obtain ⟨record, hrecord, hcommand⟩ := List.mem_flatMap.mp hcommand
    obtain ⟨s, hs, rfl⟩ := List.mem_map.mp hcommand
    rcases h.warranted record hrecord with heq | ⟨-, heq⟩
    · rw [heq, executed_of] at hs
      split at hs
      · next happlied =>
          rw [happlied] at heq
          exact ⟨record.change, s, hs, rfl, additive_of_applied hforce happlied,
            .inl (heq ▸ hrecord)⟩
      · cases hs
    · rw [heq] at hs
      cases hs
  · obtain ⟨s, hs, rfl⟩ := List.mem_map.mp hcommand
    rcases hsent with rfl | ⟨change, happlied, hprefix⟩
    · cases hs
    · refine ⟨change, s, hprefix.subset hs, rfl, additive_of_applied hforce happlied, .inr ?_⟩
      intro hfailure
      rw [hnone hfailure] at hs
      cases hs

/-- Without force each change that is not additive is skipped. -/
theorem destructive_skipped (h : Carried d options failure events)
    (hforce : options.force = false) {record : ChangeRecord}
    (hrecord : record ∈ Event.records events) (hchange : record.change.isAdditive = false) :
    record.outcome = .skipped .destructive := by
  have hdestructive : record.change.isDestructive = true := by
    rw [Change.is_destructive_eq, hchange]
    rfl
  rcases h.warranted record hrecord with heq | ⟨hunharmful, -⟩
  · rw [heq]
    show outcomeOf options record.change = _
    rw [outcomeOf, hdestructive, hforce]
    rfl
  · rw [hdestructive] at hunharmful
    cases hunharmful

end Carried

end Synchronization

namespace Session

open Synchronization

variable {σ : Type}

/-- Without force a synchronization of distinct tables does nothing destructive, whatever the engine
answers. It sends statements of additive changes only, and each other change is recorded as skipped.
Once the index of a column was found to stay, adding one to the column is held back, and no
statement that does so is sent. If the columns of the table are distinct, this goes for the whole
run: only where a column is declared twice can an index be added to it and found to stay later. -/
theorem update_schema_gate {options : SyncOptions} (hforce : options.force = false)
    {schema : Schema} (htables : (schema.tables.map Table.name).Nodup) (b : Backend σ)
    (db : Handle σ) :
    (∀ log, ((updateSchema b schema options).run db).1 = .ok log →
      log = Event.records ((updateSchema b schema options).trace db)) ∧
    (∀ command ∈ Event.commands ((updateSchema b schema options).trace db),
      ∃ change, ∃ s ∈ b.dialect.statements change, command = .ddl s ∧ change.isAdditive = true ∧
        (.of b.dialect change .applied ∈
            Event.records ((updateSchema b schema options).trace db) ∨
          ∃ e, ((updateSchema b schema options).run db).1 = .error e)) ∧
    (∀ record ∈ Event.records ((updateSchema b schema options).trace db),
      record.change.isAdditive = false → record.outcome = .skipped .destructive) ∧
    ∀ table column,
      ((updateSchema b schema options).trace db).Pairwise
        (fun e e' => e.KeepsIndex table column → e'.AddsNoIndex b.dialect table column) ∧
      ((∀ t ∈ schema.tables, t.name = table → (t.columns.map Column.name).Nodup) →
        (∃ e ∈ (updateSchema b schema options).trace db, e.KeepsIndex table column) →
        ∀ e ∈ (updateSchema b schema options).trace db, e.AddsNoIndex b.dialect table column) := by
  have hcarried := update_schema_carried b schema options db
  refine ⟨fun log => update_schema_log, fun command hcommand => ?_,
    fun record hrecord hchange => ?_, fun table column => ?_⟩
  · obtain ⟨change, s, hs, rfl, hadditive, hrecord⟩ := hcarried.additive hforce hcommand
    refine ⟨change, s, hs, rfl, hadditive, hrecord.imp_right fun hfailure => ?_⟩
    rcases hrun : ((updateSchema b schema options).run db).1 with e | log
    · exact ⟨e, rfl⟩
    · rw [hrun] at hfailure
      exact absurd rfl hfailure
  · exact hcarried.destructive_skipped hforce hrecord hchange
  · have hwaits : (updateSchema b schema options).Shows fun _ => Waits b.dialect table column
        (∀ t ∈ schema.tables, t.name = table → (t.columns.map Column.name).Nodup) := by
      unfold updateSchema
      refine spares_bind_waits ?_ fun existing =>
        sync_tables_waits hforce htables existing table column
      exact Obeys.of_quiet (spares_index_cumulative _ _ _) (Quiet.tables b)
    exact ⟨(hwaits db).later, (hwaits db).throughout⟩

/-- A table with an indexed column and one that is not declared. -/
def indexedHandle : Handle Script :=
  .start (some ⟨"localhost", none, "", "", "app"⟩) []
    { fetches := [.ok [⟨[("name", some (.text "t"))]⟩]]
      describes := [.ok [⟨.ofType "a" "INT" true none .nonUnique, some "a_index"⟩,
        ⟨.ofType "old" "INT" true none .none, none⟩]] }

/-- The index is declared to be another one, and there is one more column. -/
def reindexedSchema : Schema :=
  ⟨[⟨"t", [.ofType "a" "INT" true none .unique, .ofType "b" "INT" true none .nonUnique]⟩]⟩

/-- The statement above speaks of runs in which an index stays: here the log tells of a column that
stays, of an index that stays and of the one held back for it, and of a column that is added. -/
theorem reindexed_gate :
    (reindexedSchema.tables.map Table.name).Nodup ∧
    ((updateSchema (Script.backend .sqlite) reindexedSchema ⟨false, false⟩).run
        indexedHandle).1.map (List.map ChangeRecord.describe) =
      .ok ["[skipped, needs --force] dropped column `t.old`",
        "[skipped, needs --force] dropped index `a_index` on `t`",
        "[skipped, old index kept] added unique index on `t.a`",
        "added column `t.b` INT NULL with index"] ∧
    (∃ e ∈ (updateSchema (Script.backend .sqlite) reindexedSchema ⟨false, false⟩).trace
      indexedHandle, e.KeepsIndex "t" "a") ∧
    ∀ e ∈ (updateSchema (Script.backend .sqlite) reindexedSchema ⟨false, false⟩).trace
      indexedHandle, e.AddsNoIndex .sqlite "t" "a" := by
  have hforce : (⟨false, false⟩ : SyncOptions).force = false := rfl
  have htables : (reindexedSchema.tables.map Table.name).Nodup := by decide
  have hcolumns : ∀ t ∈ reindexedSchema.tables, t.name = "t" →
      (t.columns.map Column.name).Nodup := by
    decide
  have hkeeps : ∃ e ∈ (updateSchema (Script.backend .sqlite) reindexedSchema ⟨false, false⟩).trace
      indexedHandle, e.KeepsIndex "t" "a" := by
    refine ⟨.recorded (.of .sqlite (.dropIndex "t" "a" "a_index") (.skipped .destructive)), ?_,
      _, "a_index", rfl, rfl, rfl⟩
    decide +kernel
  refine ⟨htables, by decide +kernel, hkeeps, ?_⟩
  obtain ⟨-, -, -, hindexes⟩ := update_schema_gate hforce htables (Script.backend .sqlite)
    indexedHandle
  exact (hindexes "t" "a").2 hcolumns hkeeps

end Session

end SchemaKeeper

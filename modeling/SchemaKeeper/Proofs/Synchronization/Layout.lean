import SchemaKeeper.Proofs.Session.Faithful
import SchemaKeeper.Synchronization

/-!
# The columns of a table on its way to the declaration

`layout` gives the columns that a table has after some of its declared columns were brought about:
the live ones, each as its declaration leaves it, and the new ones behind them. `layout_snoc_new`
and `layout_snoc_live` say what one more declared column makes of it, and `layout_agrees` that in
the end every declared column is there as declared.
-/

namespace SchemaKeeper

namespace Synchronization

/-- Where names are distinct, an element is found under its name. -/
theorem find_of_names_nodup {α : Type} (name : α → String) {items : List α} {a : α}
    (hnames : (items.map name).Nodup) (ha : a ∈ items) :
    items.find? (fun b => name b = name a) = some a := by
  induction items with
  | nil => cases ha
  | cons b rest ih =>
      rw [List.map_cons, List.nodup_cons] at hnames
      rcases List.mem_cons.mp ha with rfl | hrest
      · exact List.find?_cons_of_pos (by simp)
      · have hne : name b ≠ name a := fun h => hnames.1 (h ▸ List.mem_map_of_mem hrest)
        rw [List.find?_cons_of_neg (by simpa using hne), ih hnames.2 hrest]

/-- What is found under a name has it. -/
theorem name_of_find {α : Type} (name : α → String) {items : List α} {n : String} {a : α}
    (h : items.find? (fun b => name b = n) = some a) : name a = n := by
  simpa using List.find?_some h

/-- A live column after its definition was brought about; without force it stays. -/
def redefined (force : Bool) (declared current : Column) : Column :=
  if declared.definitionDiffers current && force then { declared with index := current.index }
  else current

/-- A live column after its index was brought about; without force an index stays. -/
def reindexed (force : Bool) (declared current : Column) : Column :=
  if current.index.isIndexed && !force then current else { current with index := declared.index }

/-- A live column after it was brought about. -/
def settled (force : Bool) (declared current : Column) : Column :=
  reindexed force declared (redefined force declared current)

/-- A live column after some declared columns were brought about. -/
def brought (force : Bool) (done : List Column) (c : Column) : Column :=
  match done.find? fun d => d.name = c.name with
  | none => c
  | some d => settled force d c

/-- The columns of a table after some declared columns were brought about: the live ones, each as
its declaration leaves it, and the new ones. -/
def layout (force : Bool) (live done : List Column) : List Column :=
  live.map (brought force done) ++ done.filter fun d =>
    !Identifier.isReserved d.name && !(live.map Column.name).contains d.name

@[simp] theorem redefined_name (force : Bool) (declared current : Column)
    (h : declared.name = current.name) :
    (redefined force declared current).name = current.name := by
  unfold redefined
  split
  · exact h
  · rfl

@[simp] theorem reindexed_name (force : Bool) (declared current : Column) :
    (reindexed force declared current).name = current.name := by
  unfold reindexed
  split <;> rfl

theorem settled_name (force : Bool) (declared current : Column)
    (h : declared.name = current.name) : (settled force declared current).name = current.name := by
  rw [settled, reindexed_name, redefined_name force declared current h]

/-- The definition that a column has does not differ from itself. -/
theorem definition_differs_self (c : Column) : c.definitionDiffers c = false := by
  simp [Column.definitionDiffers]

/-- With force a live column ends up with the declared definition and the declared index. -/
theorem settled_agrees (declared current : Column) :
    declared.definitionDiffers (settled true declared current) = false ∧
      (settled true declared current).index = declared.index := by
  have hindex : ∀ c : Column, reindexed true declared c = { c with index := declared.index } :=
    fun c => if_neg (by simp)
  rw [settled, hindex]
  constructor
  · cases hdiffers : declared.definitionDiffers current with
    | true =>
        rw [redefined, hdiffers]
        exact definition_differs_self declared
    | false =>
        rw [redefined, hdiffers]
        exact hdiffers
  · rfl

theorem brought_name (force : Bool) (done : List Column) (c : Column) :
    (brought force done c).name = c.name := by
  unfold brought
  cases h : done.find? fun d => d.name = c.name with
  | none => rfl
  | some d => exact settled_name force d c (name_of_find Column.name h)

theorem brought_of_not_mem {force : Bool} {done : List Column} {c : Column}
    (h : c.name ∉ done.map Column.name) : brought force done c = c := by
  have hnone : done.find? (fun d => d.name = c.name) = none := by
    rw [List.find?_eq_none]
    intro d hd hname
    exact h (List.mem_map.mpr ⟨d, hd, by simpa using hname⟩)
  rw [brought, hnone]

theorem brought_snoc_self {force : Bool} {before : List Column} {declared c : Column}
    (hbefore : declared.name ∉ before.map Column.name) (hname : c.name = declared.name) :
    brought force (before ++ [declared]) c = settled force declared c := by
  have hnone : before.find? (fun d => d.name = c.name) = none := by
    rw [List.find?_eq_none]
    intro d hd hd'
    exact hbefore (List.mem_map.mpr ⟨d, hd, by rw [← hname]; simpa using hd'⟩)
  rw [brought, List.find?_append, hnone, Option.none_or,
    List.find?_cons_of_pos (by simp [hname])]

theorem brought_snoc_other {force : Bool} {before : List Column} {declared c : Column}
    (hname : c.name ≠ declared.name) :
    brought force (before ++ [declared]) c = brought force before c := by
  rw [brought, brought, List.find?_append, List.find?_cons_of_neg (by simpa using hname.symm),
    List.find?_nil, Option.or_none]

/-- Before any declared column is brought about, the live columns stand as they are. -/
theorem layout_nil (force : Bool) (live : List Column) : layout force live [] = live := by
  rw [layout, List.filter_nil, List.append_nil]
  exact List.map_id'' (fun c => brought_of_not_mem List.not_mem_nil) live

/-- The live columns keep their names in a layout, and the new ones stand behind them. -/
theorem layout_names (force : Bool) (live done : List Column) :
    (layout force live done).map Column.name = live.map Column.name ++
      (done.map Column.name).filter fun name =>
        !Identifier.isReserved name && !(live.map Column.name).contains name := by
  rw [layout, List.map_append, List.map_map, List.filter_map]
  congr 1
  exact List.map_congr_left fun c _ => brought_name force done c

theorem layout_names_nodup {force : Bool} {live done : List Column}
    (hlive : (live.map Column.name).Nodup) (hdone : (done.map Column.name).Nodup) :
    ((layout force live done).map Column.name).Nodup := by
  rw [layout_names, List.nodup_append]
  refine ⟨hlive, hdone.filter _, ?_⟩
  rintro name hname _ hnew rfl
  have hnotlive := (List.mem_filter.mp hnew).2
  simp_all

/-- A live column that no declared one has been brought about for is still in place. -/
theorem mem_layout {force : Bool} {live done : List Column} {c : Column} (hc : c ∈ live)
    (hdone : c.name ∉ done.map Column.name) : c ∈ layout force live done :=
  List.mem_append_left _ (List.mem_map.mpr ⟨c, hc, brought_of_not_mem hdone⟩)

/-- Reserved columns leave no trace. -/
theorem layout_snoc_reserved {force : Bool} {live before : List Column} {declared : Column}
    (hreserved : Identifier.isReserved declared.name = true)
    (hlive : declared.name ∉ live.map Column.name) :
    layout force live (before ++ [declared]) = layout force live before := by
  rw [layout, layout, List.filter_append, List.filter_cons_of_neg (by simp [hreserved]),
    List.filter_nil, List.append_nil]
  congr 1
  refine List.map_congr_left fun c hc => brought_snoc_other fun hname => ?_
  exact hlive (List.mem_map.mpr ⟨c, hc, hname⟩)

/-- A declared column that is not live comes last. -/
theorem layout_snoc_new {force : Bool} {live before : List Column} {declared : Column}
    (hreserved : Identifier.isReserved declared.name = false)
    (hlive : declared.name ∉ live.map Column.name) :
    layout force live (before ++ [declared]) = layout force live before ++ [declared] := by
  rw [layout, layout, List.filter_append,
    List.filter_cons_of_pos (by simpa [hreserved] using hlive), List.filter_nil,
    List.append_assoc]
  congr 1
  refine List.map_congr_left fun c hc => brought_snoc_other fun hname => ?_
  exact hlive (List.mem_map.mpr ⟨c, hc, hname⟩)

/-- A declared column that is live is brought about where it stands. -/
theorem layout_snoc_live {force : Bool} {live before : List Column} {declared : Column}
    (hbefore : declared.name ∉ before.map Column.name)
    (hlive : declared.name ∈ live.map Column.name) :
    layout force live (before ++ [declared]) =
      Column.onNamed declared.name (settled force declared) (layout force live before) := by
  rw [layout, layout, Column.onNamed, List.filter_append,
    List.filter_cons_of_neg (by simpa using fun _ => hlive), List.filter_nil, List.append_nil,
    List.map_append, List.map_map]
  congr 1
  · refine List.map_congr_left fun c _ => ?_
    rw [Function.comp_apply, brought_name]
    split
    · next hname =>
        rw [brought_snoc_self hbefore hname, brought_of_not_mem (by rwa [hname])]
    · next hname => exact brought_snoc_other hname
  · -- The new columns have other names.
    rw [List.map_congr_left (g := id), List.map_id]
    intro d hd
    have hnew := (List.mem_filter.mp hd).2
    refine if_neg fun hname => ?_
    rw [hname] at hnew
    simp [hlive] at hnew

/-- With force every declared column that is not reserved is in the layout as declared. -/
theorem layout_agrees {live columns : List Column} {declared : Column}
    (hcolumns : (columns.map Column.name).Nodup) (hdeclared : declared ∈ columns)
    (hreserved : Identifier.isReserved declared.name = false) :
    ∃ c ∈ layout true live columns, c.name = declared.name ∧
      declared.definitionDiffers c = false ∧ c.index = declared.index := by
  by_cases hlive : declared.name ∈ live.map Column.name
  · obtain ⟨c, hc, hname⟩ := List.mem_map.mp hlive
    have hbrought : brought true columns c = settled true declared c := by
      rw [brought, hname, find_of_names_nodup Column.name hcolumns hdeclared]
    refine ⟨settled true declared c, ?_, ?_, settled_agrees declared c⟩
    · rw [← hbrought]
      exact List.mem_append_left _ (List.mem_map_of_mem hc)
    · rw [settled_name true declared c hname.symm, hname]
  · refine ⟨declared, List.mem_append_right _ (List.mem_filter.mpr ⟨hdeclared, ?_⟩), rfl,
      definition_differs_self declared, rfl⟩
    simpa [hreserved] using hlive

end Synchronization

end SchemaKeeper
